import FiveStage.Word

/-!
# Arithmetic and logic

Three units share the ten operations. A unit asked for an operation of another
unit answers zero.
-/

set_option autoImplicit false

namespace FiveStage

inductive AluOp where
  | add
  | sub
  | sll
  | slt
  | sltu
  | xor
  | srl
  | sra
  | or
  | and
  deriving DecidableEq

inductive AluUnit where
  | arithmetic
  | logic
  | shifts
  deriving DecidableEq

namespace AluOp

def unit : AluOp → AluUnit
  | add | sub => .arithmetic
  | slt | sltu | xor | or | and => .logic
  | sll | srl | sra => .shifts

/-- The operation on two words. A shift takes its amount from the five low bits
of the second operand, a comparison answers one or zero. -/
def apply (op : AluOp) (a b : Word) : Word :=
  let amount := (b.extractLsb' 0 5).toNat
  match op with
  | add => a + b
  | sub => a - b
  | sll => a <<< amount
  | slt => if a.slt b then 1 else 0
  | sltu => if a.ult b then 1 else 0
  | xor => a ^^^ b
  | srl => a >>> amount
  | sra => a.sshiftRight amount
  | or => a ||| b
  | and => a &&& b

def ofRegister? (funct3 : BitVec 3) (funct7 : BitVec 7) : Option AluOp :=
  match funct3.toNat, funct7.toNat with
  | 0, 0x00 => some add
  | 0, 0x20 => some sub
  | 1, 0x00 => some sll
  | 2, 0x00 => some slt
  | 3, 0x00 => some sltu
  | 4, 0x00 => some xor
  | 5, 0x00 => some srl
  | 5, 0x20 => some sra
  | 6, 0x00 => some or
  | 7, 0x00 => some and
  | _, _ => none

/-- The operation of a register-immediate instruction. The upper function field
belongs to the immediate except in a shift. -/
def ofImmediate? (funct3 : BitVec 3) (funct7 : BitVec 7) : Option AluOp :=
  match funct3.toNat, funct7.toNat with
  | 0, _ => some add
  | 1, 0x00 => some sll
  | 2, _ => some slt
  | 3, _ => some sltu
  | 4, _ => some xor
  | 5, 0x00 => some srl
  | 5, 0x20 => some sra
  | 6, _ => some or
  | 7, _ => some and
  | _, _ => none

end AluOp

def AluUnit.apply (u : AluUnit) (op : AluOp) (a b : Word) : Word :=
  if op.unit = u then op.apply a b else 0

end FiveStage
