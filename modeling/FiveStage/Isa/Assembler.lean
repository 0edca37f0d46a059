import FiveStage.Isa.Assembly
import FiveStage.Isa.Encoding

/-!
# Reading assembly language back

A mnemonic stands for an opcode and its function fields, and the operands of a
line for the other fields. Only a line that leaves no field of its word out is
read back, so that `fence` is not.
-/

set_option autoImplicit false

namespace FiveStage

/-- What a mnemonic says of a word. A function field that the mnemonic leaves
open is zero. -/
structure Operation where
  opcode : Opcode
  funct3 : BitVec 3
  funct7 : BitVec 7
  deriving DecidableEq

namespace Operation

def table : List (String × Operation) :=
  [("lui", ⟨.lui, 0, 0⟩), ("auipc", ⟨.auipc, 0, 0⟩), ("jal", ⟨.jal, 0, 0⟩), ("jalr", ⟨.jalr, 0, 0⟩),
    ("beq", ⟨.branch, 0, 0⟩), ("bne", ⟨.branch, 1, 0⟩), ("blt", ⟨.branch, 4, 0⟩),
    ("bge", ⟨.branch, 5, 0⟩), ("bltu", ⟨.branch, 6, 0⟩), ("bgeu", ⟨.branch, 7, 0⟩),
    ("lb", ⟨.load, 0, 0⟩), ("lh", ⟨.load, 1, 0⟩), ("lw", ⟨.load, 2, 0⟩), ("lbu", ⟨.load, 4, 0⟩),
    ("lhu", ⟨.load, 5, 0⟩), ("sb", ⟨.store, 0, 0⟩), ("sh", ⟨.store, 1, 0⟩), ("sw", ⟨.store, 2, 0⟩),
    ("addi", ⟨.opImm, 0, 0⟩), ("slti", ⟨.opImm, 2, 0⟩), ("sltiu", ⟨.opImm, 3, 0⟩),
    ("xori", ⟨.opImm, 4, 0⟩), ("ori", ⟨.opImm, 6, 0⟩), ("andi", ⟨.opImm, 7, 0⟩),
    ("slli", ⟨.opImm, 1, 0⟩), ("srli", ⟨.opImm, 5, 0⟩), ("srai", ⟨.opImm, 5, 0x20⟩),
    ("add", ⟨.op, 0, 0⟩), ("sub", ⟨.op, 0, 0x20⟩), ("sll", ⟨.op, 1, 0⟩), ("slt", ⟨.op, 2, 0⟩),
    ("sltu", ⟨.op, 3, 0⟩), ("xor", ⟨.op, 4, 0⟩), ("srl", ⟨.op, 5, 0⟩), ("sra", ⟨.op, 5, 0x20⟩),
    ("or", ⟨.op, 6, 0⟩), ("and", ⟨.op, 7, 0⟩)]

/-- An instruction with given operands. The upper function field of a shift is
the part of its immediate above the amount. -/
def instruction (o : Operation) (rd rs1 rs2 : Reg) (n : Int) : Instruction where
  raw := 0
  opcode := o.opcode.bits
  format := Format.ofOpcode o.opcode
  rd := rd
  rs1 := rs1
  rs2 := rs2
  funct3 := o.funct3
  funct7 := o.funct7
  imm := .ofInt 32 (n + 32 * o.funct7.toNat)

end Operation

namespace Assembly

def instruction? : Assembly → Option Instruction
  | bare _ | unknown _ => none
  | registers m rd rs1 rs2 => (Operation.table.lookup m).map fun o => o.instruction rd rs1 rs2 0
  | immediate m r1 r2 n => (Operation.table.lookup m).map fun o =>
    if o.opcode = .branch then o.instruction 0 r1 r2 n else o.instruction r1 r2 0 n
  | displaced m r n base => (Operation.table.lookup m).map fun o =>
    if o.opcode = .store then o.instruction 0 base r n else o.instruction r base 0 n
  | upper m rd n => (Operation.table.lookup m).map fun o => o.instruction rd 0 0 (4096 * n)
  | far m rd n => (Operation.table.lookup m).map fun o => o.instruction rd 0 0 n

def word? : Assembly → Option Word
  | bare m => [("nop", Word.nop), ("ecall", Word.ecall), ("ebreak", Word.ebreak)].lookup m
  | unknown w => some w
  | a => a.instruction?.bind Instruction.encode?

end Assembly

end FiveStage
