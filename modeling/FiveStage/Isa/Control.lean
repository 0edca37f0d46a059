import FiveStage.Isa.Instruction
import FiveStage.Alu
import FiveStage.Branch
import FiveStage.Trap

/-!
# Control signals

What the later stages need to know of an instruction. The signals exist for
legal words only: this table is the definition of the instruction set that the
machine accepts.
-/

set_option autoImplicit false

namespace FiveStage

/-- The size of a memory access. `none` is no access at all. -/
inductive Width where
  | none
  | byte
  | half
  | word
  deriving DecidableEq

namespace Width

def size : Width → Nat
  | none => 0
  | byte => 1
  | half => 2
  | word => 4

def ofLoad? (funct3 : BitVec 3) : Option (Width × Bool) :=
  match funct3.toNat with
  | 0 => some (byte, true)
  | 1 => some (half, true)
  | 2 => some (word, true)
  | 4 => some (byte, false)
  | 5 => some (half, false)
  | _ => Option.none

def ofStore? (funct3 : BitVec 3) : Option Width :=
  match funct3.toNat with
  | 0 => some byte
  | 1 => some half
  | 2 => some word
  | _ => Option.none

end Width

inductive OperandA where
  | reg1
  | pc
  | zero
  deriving DecidableEq

inductive OperandB where
  | imm
  | reg2
  | four
  deriving DecidableEq

def OperandA.value (a : OperandA) (pc rv1 : Word) : Word :=
  match a with
  | .reg1 => rv1
  | .pc => pc
  | .zero => 0

def OperandB.value (b : OperandB) (imm rv2 : Word) : Word :=
  match b with
  | .imm => imm
  | .reg2 => rv2
  | .four => Word.instructionSize

structure Control where
  regWrite : Bool := false
  memRead : Bool := false
  memWrite : Bool := false
  branch : Bool := false
  jump : Bool := false
  signedLoad : Bool := false
  halt : Bool := false
  width : Width := .none
  alu : AluOp := .add
  a : OperandA := .reg1
  b : OperandB := .imm
  deriving DecidableEq

def Control.isTransfer (c : Control) : Bool :=
  c.branch || c.jump

def Control.result (c : Control) (pc imm rv1 rv2 : Word) : Word :=
  c.alu.apply (c.a.value pc rv1) (c.b.value imm rv2)

def Word.ecall : Word := 0x00000073
def Word.ebreak : Word := 0x00100073

namespace Instruction

/-- The signals of a legal instruction, nothing for any other word. -/
def control? (d : Instruction) : Option Control :=
  match d.opcode? with
  | some .lui => some { regWrite := true, a := .zero }
  | some .auipc => some { regWrite := true, a := .pc }
  | some .jal => some { regWrite := true, jump := true, a := .pc, b := .four }
  | some .jalr =>
    if d.funct3 = 0 then some { regWrite := true, jump := true, a := .pc, b := .four } else none
  | some .branch =>
    (Condition.ofCode? d.funct3.toNat).map fun _ => { branch := true, b := .reg2 }
  | some .load =>
    (Width.ofLoad? d.funct3).map fun (width, signed) =>
      { regWrite := true, memRead := true, width := width, signedLoad := signed }
  | some .store =>
    (Width.ofStore? d.funct3).map fun width => { memWrite := true, width := width }
  | some .opImm =>
    (AluOp.ofImmediate? d.funct3 d.funct7).map fun op => { regWrite := true, alu := op }
  | some .op =>
    (AluOp.ofRegister? d.funct3 d.funct7).map fun op =>
      { regWrite := true, alu := op, b := .reg2 }
  | some .miscMem => if d.funct3 = 0 then some {} else none
  | some .system =>
    if d.raw = Word.ecall ∨ d.raw = Word.ebreak then some { halt := true } else none
  | none => none

def control (d : Instruction) : Except Trap Control :=
  match d.control? with
  | some c => .ok c
  | none => .error (.illegalInstruction d.raw)

end Instruction

end FiveStage
