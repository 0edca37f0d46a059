import FiveStage.Word

/-!
# Branch conditions and targets
-/

set_option autoImplicit false

namespace FiveStage

inductive Condition where
  | eq
  | ne
  | lt
  | ge
  | ltu
  | geu
  deriving DecidableEq

namespace Condition

def ofCode? : Nat → Option Condition
  | 0 => some eq
  | 1 => some ne
  | 4 => some lt
  | 5 => some ge
  | 6 => some ltu
  | 7 => some geu
  | _ => none

def holds (c : Condition) (a b : Word) : Bool :=
  match c with
  | eq => a == b
  | ne => a != b
  | lt => a.slt b
  | ge => !a.slt b
  | ltu => a.ult b
  | geu => !a.ult b

end Condition

namespace Target

def relative (pc offset : Word) : Word :=
  pc + offset

/-- The target of `jalr`: a register plus an offset, with the lowest bit cleared. -/
def indirect (base offset : Word) : Word :=
  (base + offset) &&& ~~~1

end Target

end FiveStage
