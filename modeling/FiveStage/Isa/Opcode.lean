/-!
# Major opcodes and formats

The seven low bits of an instruction word select its major opcode, and the
opcode fixes how the other bits are divided into fields.
-/

set_option autoImplicit false

namespace FiveStage

inductive Opcode where
  | load
  | miscMem
  | opImm
  | auipc
  | store
  | op
  | lui
  | branch
  | jalr
  | jal
  | system
  deriving DecidableEq

namespace Opcode

def bits : Opcode → BitVec 7
  | load => 0x03
  | miscMem => 0x0F
  | opImm => 0x13
  | auipc => 0x17
  | store => 0x23
  | op => 0x33
  | lui => 0x37
  | branch => 0x63
  | jalr => 0x67
  | jal => 0x6F
  | system => 0x73

def all : List Opcode :=
  [load, miscMem, opImm, auipc, store, op, lui, branch, jalr, jal, system]

def ofBits? (b : BitVec 7) : Option Opcode :=
  all.find? fun o => o.bits == b

@[simp] theorem ofBits?_bits (o : Opcode) : ofBits? o.bits = some o := by
  cases o <;> rfl

theorem bits_of_ofBits? {b : BitVec 7} {o : Opcode} (h : ofBits? b = some o) : o.bits = b := by
  simpa using List.find?_some h

end Opcode

/-- How the bits of a word are divided. `none` stands for words whose only
field is the opcode. -/
inductive Format where
  | r
  | i
  | s
  | b
  | u
  | j
  | none
  deriving DecidableEq

namespace Format

def ofOpcode : Opcode → Format
  | .op => r
  | .opImm | .load | .jalr => i
  | .store => s
  | .branch => b
  | .lui | .auipc => u
  | .jal => j
  | .miscMem | .system => none

def ofBits (opcode : BitVec 7) : Format :=
  (Opcode.ofBits? opcode).elim none ofOpcode

def ofCode (n : Nat) : Format :=
  if n < 128 then ofBits (BitVec.ofNat 7 n) else none

def readsRs1 : Format → Bool
  | r | i | s | b => true
  | u | j | none => false

def readsRs2 : Format → Bool
  | r | s | b => true
  | i | u | j | none => false

def writesRd : Format → Bool
  | r | i | u | j => true
  | s | b | none => false

end Format

end FiveStage
