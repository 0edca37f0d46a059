import FiveStage.Pipeline.Forward
import FiveStage.Pipeline.Hazard
import FiveStage.Registers

/-!
# Issue

What decode makes of the word in the first latch: the entry for the next
latch, the snapshot for the hazard unit, and where a transfer goes. Branches
are resolved here, with operands taken from the register file or forwarded.
-/

set_option autoImplicit false

namespace FiveStage

structure Issue where
  entry : IdEx := {}
  snapshot : Snapshot := {}
  jump : Bool := false
  target : Word := 0
  deriving DecidableEq

namespace Issue

def trapped (pc inst : Word) (t : Trap) : Issue :=
  { entry := { valid := true, pc := pc, inst := inst, trap := some t } }

def operand (regs : Registers) (exMem : ExMem) (memWb : MemWb) (r : Reg) : Word :=
  (Source.forDecode r.toNat exMem).select (regs.read r) exMem memWb

/-- Whether the instruction leaves the straight path, and for where. A branch
that is not taken has a target too. -/
def transfer (pc : Word) (d : Instruction) (c : Control) (rv1 rv2 : Word) : Bool × Word :=
  if c.branch then
    (((Condition.ofCode? d.funct3.toNat).map fun cond => cond.holds rv1 rv2).getD false,
      Target.relative pc d.imm)
  else if c.jump then
    (true,
      if d.opcode? = some .jalr then Target.indirect rv1 d.imm else Target.relative pc d.imm)
  else (false, 0)

def ofLegal (pc inst : Word) (d : Instruction) (c : Control) (rv1 rv2 : Word) : Issue :=
  let (jump, target) := transfer pc d c rv1 rv2
  { entry :=
      { valid := true
        pc := pc
        inst := inst
        rs1 := d.rs1.toNat
        rs2 := d.rs2.toNat
        rd := if c.regWrite then d.rd.toNat else 0
        imm := d.imm
        rv1 := rv1
        rv2 := rv2
        ctrl := c }
    snapshot := Snapshot.ofInstruction d c
    jump := jump
    target := target }

def ofSlot (s : Slot) (regs : Registers) (exMem : ExMem) (memWb : MemWb) : Issue :=
  if s.valid then
    match s.trap with
    | some t => trapped s.pc s.inst t
    | none =>
      let d := decode s.inst
      match d.control with
      | .error t => trapped s.pc s.inst t
      | .ok c =>
        ofLegal s.pc s.inst d c (operand regs exMem memWb d.rs1) (operand regs exMem memWb d.rs2)
  else {}

end Issue

end FiveStage
