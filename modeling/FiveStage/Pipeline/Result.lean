import FiveStage.Pipeline.Forward

/-!
# Results

What execute and memory add to an instruction: the value of the arithmetic
unit, and the value loaded. An instruction that has met a trap passes through
both unchanged.
-/

set_option autoImplicit false

namespace FiveStage

namespace IdEx

def operand (exMem : ExMem) (memWb : MemWb) (rs : Nat) (held : Word) : Word :=
  (Source.forExecute rs exMem memWb).select held exMem memWb

def execute (e : IdEx) (exMem : ExMem) (memWb : MemWb) : ExMem :=
  if e.valid then
    match e.trap with
    | some t =>
      { valid := true, pc := e.pc, inst := e.inst, ctrl := e.ctrl, trap := some t }
    | none =>
      let rv1 := operand exMem memWb e.rs1 e.rv1
      let rv2 := operand exMem memWb e.rs2 e.rv2
      { valid := true
        pc := e.pc
        inst := e.inst
        rd := e.rd
        alu := e.ctrl.result e.pc e.imm rv1 rv2
        storeData := rv2
        ctrl := e.ctrl }
  else {}

end IdEx

namespace ExMem

def passed (e : ExMem) : MemWb :=
  { e.toSlot with rd := e.rd, alu := e.alu, ctrl := e.ctrl }

/-- The memory after the stage, and the entry that it hands to writeback. An
access that faults becomes a trap of the entry. -/
def access (e : ExMem) (ram : Memory) : Memory × MemWb :=
  if !e.valid then (ram, {})
  else if e.trap.isSome then (ram, e.passed)
  else
    match ram.access e.ctrl e.alu e.storeData with
    | (ram, .ok v) => (ram, { e.passed with loadData := v })
    | (ram, .error t) => (ram, { e.passed with trap := some t })

end ExMem

end FiveStage
