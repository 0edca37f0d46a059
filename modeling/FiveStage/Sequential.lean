import FiveStage.Machine.Core

/-!
# One instruction at a time

The machine without a pipeline: it fetches, decodes and carries out one
instruction before it looks at the next. This is the meaning of a program, to
which the pipeline is compared.
-/

set_option autoImplicit false

namespace FiveStage.Sequential

structure State where
  regs : Registers
  pc : Word
  ram : Memory
  deriving DecidableEq

inductive Outcome where
  | next (s : State)
  | halted (code : Word)
  | trapped (pc : Word) (cause : Trap)
  deriving DecidableEq

namespace State

/-- The effect of a legal instruction that does not halt. A fault of its memory
access stops it before it has any effect. -/
def perform (s : State) (d : Instruction) (c : Control) : Outcome :=
  let rv1 := s.regs.read d.rs1
  let rv2 := s.regs.read d.rs2
  let result := c.result s.pc d.imm rv1 rv2
  match s.ram.access c result rv2 with
  | (_, .error t) => .trapped s.pc t
  | (ram, .ok loaded) =>
    let (jump, target) := Issue.transfer s.pc d c rv1 rv2
    let value := if c.memRead then loaded else result
    .next
      { regs := if c.regWrite then s.regs.write d.rd.toNat value else s.regs
        pc := if jump then target else s.pc + Word.instructionSize
        ram := ram }

def step (s : State) : Outcome :=
  match s.ram.fetch s.pc with
  | .error t => .trapped s.pc t
  | .ok w =>
    let d := decode w
    match d.control with
    | .error t => .trapped s.pc t
    | .ok c => if c.halt then .halted (s.regs.read Reg.a0) else s.perform d c

def after? : Nat → State → Option State
  | 0, s => some s
  | n + 1, s =>
    match s.step with
    | .next s' => after? n s'
    | _ => none

theorem after?_add (m n : Nat) (s : State) :
    s.after? (m + n) = (s.after? m).bind fun s' => s'.after? n := by
  induction m generalizing s with
  | zero => simp [after?]
  | succ m ih =>
    rw [Nat.succ_add, after?, after?]
    cases s.step with
    | next s' => exact ih s'
    | halted code => rfl
    | trapped pc cause => rfl

end State

end FiveStage.Sequential

namespace FiveStage

/-- The state that a machine with an empty pipeline stands for. -/
def Machine.sequential (m : Machine) : Sequential.State :=
  ⟨m.core.regs, m.core.pc, m.ram⟩

end FiveStage
