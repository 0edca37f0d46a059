import FiveStage.Isa.Instruction

/-!
# Packing fields into words

The layouts of the six formats, written from the most significant field down.
Fields that a format does not have are not read.
-/

set_option autoImplicit false

namespace FiveStage

namespace Instruction

/-- The word with the fields of an instruction, laid out by its format. A word
without a format cannot be packed from its fields. -/
def encode? (d : Instruction) : Option Word :=
  let imm := d.imm
  match d.format with
  | .r => some (d.funct7 ++ d.rs2 ++ d.rs1 ++ d.funct3 ++ d.rd ++ d.opcode)
  | .i => some (imm.extractLsb' 0 12 ++ d.rs1 ++ d.funct3 ++ d.rd ++ d.opcode)
  | .s => some (imm.extractLsb' 5 7 ++ d.rs2 ++ d.rs1 ++ d.funct3 ++ imm.extractLsb' 0 5
      ++ d.opcode)
  | .b => some (imm.extractLsb' 12 1 ++ imm.extractLsb' 5 6 ++ d.rs2 ++ d.rs1 ++ d.funct3
      ++ imm.extractLsb' 1 4 ++ imm.extractLsb' 11 1 ++ d.opcode)
  | .u => some (imm.extractLsb' 12 20 ++ d.rd ++ d.opcode)
  | .j => some (imm.extractLsb' 20 1 ++ imm.extractLsb' 1 10 ++ imm.extractLsb' 11 1
      ++ imm.extractLsb' 12 8 ++ d.rd ++ d.opcode)
  | .none => none

end Instruction

end FiveStage
