import FiveStage.Isa.Control
import FiveStage.Text.Numeral

/-!
# Assembly language

A word is first read as a line of assembly and the line is then written out.
Reading is laxer than the table of legal words: it names a shift whatever its
upper function field, and `jalr` and `fence` whatever their function field.
-/

set_option autoImplicit false

namespace FiveStage

inductive Assembly where
  | bare (mnemonic : String)
  | registers (mnemonic : String) (rd rs1 rs2 : Reg)
  | immediate (mnemonic : String) (r1 r2 : Reg) (n : Int)
  /-- A register and an address, written as a distance from a base register. -/
  | displaced (mnemonic : String) (r : Reg) (n : Int) (base : Reg)
  | upper (mnemonic : String) (rd : Reg) (n : Nat)
  | far (mnemonic : String) (rd : Reg) (n : Int)
  | unknown (word : Word)
  deriving DecidableEq

def AluOp.mnemonic : AluOp → String
  | .add => "add"
  | .sub => "sub"
  | .sll => "sll"
  | .slt => "slt"
  | .sltu => "sltu"
  | .xor => "xor"
  | .srl => "srl"
  | .sra => "sra"
  | .or => "or"
  | .and => "and"

def Condition.mnemonic : Condition → String
  | .eq => "beq"
  | .ne => "bne"
  | .lt => "blt"
  | .ge => "bge"
  | .ltu => "bltu"
  | .geu => "bgeu"

def Width.loadMnemonic : Width × Bool → String
  | (.byte, true) => "lb"
  | (.half, true) => "lh"
  | (.byte, false) => "lbu"
  | (.half, false) => "lhu"
  | _ => "lw"

def Width.storeMnemonic : Width → String
  | .byte => "sb"
  | .half => "sh"
  | _ => "sw"

namespace Assembly

/-- A line for a register-immediate word. The canonical no-operation has a name
of its own, and a shift shows the five bits of its amount. -/
def ofImmediate (d : Instruction) : Assembly :=
  let plain (m : String) := immediate m d.rd d.rs1 d.imm.toInt
  let shift (m : String) := immediate m d.rd d.rs1 (d.imm.extractLsb' 0 5).toNat
  match d.funct3.toNat with
  | 0 => if d.raw = Word.nop then bare "nop" else plain "addi"
  | 1 => shift "slli"
  | 2 => plain "slti"
  | 3 => plain "sltiu"
  | 4 => plain "xori"
  | 5 => if d.funct7 = 0x20 then shift "srai" else shift "srli"
  | 6 => plain "ori"
  | _ => plain "andi"

def ofInstruction? (d : Instruction) : Option Assembly :=
  match d.opcode? with
  | some .op => (AluOp.ofRegister? d.funct3 d.funct7).map fun op =>
      registers op.mnemonic d.rd d.rs1 d.rs2
  | some .opImm => some (ofImmediate d)
  | some .load => (Width.ofLoad? d.funct3).map fun w =>
      displaced (Width.loadMnemonic w) d.rd d.imm.toInt d.rs1
  | some .store => (Width.ofStore? d.funct3).map fun w =>
      displaced w.storeMnemonic d.rs2 d.imm.toInt d.rs1
  | some .branch => (Condition.ofCode? d.funct3.toNat).map fun c =>
      immediate c.mnemonic d.rs1 d.rs2 d.imm.toInt
  | some .lui => some (upper "lui" d.rd (d.imm >>> 12).toNat)
  | some .auipc => some (upper "auipc" d.rd (d.imm >>> 12).toNat)
  | some .jal => some (far "jal" d.rd d.imm.toInt)
  | some .jalr => some (displaced "jalr" d.rd d.imm.toInt d.rs1)
  | some .miscMem => some (bare "fence")
  | some .system =>
    if d.raw = Word.ecall then some (bare "ecall")
    else if d.raw = Word.ebreak then some (bare "ebreak")
    else none
  | none => none

def ofWord (w : Word) : Assembly :=
  (ofInstruction? (decode w)).getD (unknown w)

def text : Assembly → String
  | bare m => m
  | registers m rd rs1 rs2 => m ++ " " ++ rd.name ++ ", " ++ rs1.name ++ ", " ++ rs2.name
  | immediate m r1 r2 n => m ++ " " ++ r1.name ++ ", " ++ r2.name ++ ", " ++ Text.integer n
  | displaced m r n base =>
    m ++ " " ++ r.name ++ ", " ++ Text.integer n ++ "(" ++ base.name ++ ")"
  | upper m rd n => m ++ " " ++ rd.name ++ ", " ++ Text.hex n
  | far m rd n => m ++ " " ++ rd.name ++ ", " ++ Text.integer n
  | unknown w => "unknown (" ++ Text.hex8 w.toNat ++ ")"

end Assembly

def disassemble (w : Word) : String :=
  (Assembly.ofWord w).text

end FiveStage
