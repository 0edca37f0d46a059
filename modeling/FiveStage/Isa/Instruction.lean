import FiveStage.Word
import FiveStage.Isa.Register
import FiveStage.Isa.Opcode

/-!
# Instruction words and their fields

Every field of a word has a fixed position. An instruction shows the register
fields and the immediate that the format of its opcode has, and zero for those
that it has not; the function fields are always taken from their positions.
-/

set_option autoImplicit false

namespace FiveStage

namespace Word

def opcode (w : Word) : BitVec 7 := w.extractLsb' 0 7
def rd (w : Word) : Reg := w.extractLsb' 7 5
def funct3 (w : Word) : BitVec 3 := w.extractLsb' 12 3
def rs1 (w : Word) : Reg := w.extractLsb' 15 5
def rs2 (w : Word) : Reg := w.extractLsb' 20 5
def funct7 (w : Word) : BitVec 7 := w.extractLsb' 25 7

def immI (w : Word) : Word :=
  (w.extractLsb' 20 12).signExtend 32

def immS (w : Word) : Word :=
  (w.extractLsb' 25 7 ++ w.extractLsb' 7 5).signExtend 32

def immB (w : Word) : Word :=
  (w.extractLsb' 31 1 ++ w.extractLsb' 7 1 ++ w.extractLsb' 25 6 ++ w.extractLsb' 8 4
    ++ 0#1).signExtend 32

def immU (w : Word) : Word :=
  w.extractLsb' 12 20 ++ 0#12

def immJ (w : Word) : Word :=
  (w.extractLsb' 31 1 ++ w.extractLsb' 12 8 ++ w.extractLsb' 20 1 ++ w.extractLsb' 21 10
    ++ 0#1).signExtend 32

def imm (w : Word) : Format → Word
  | .i => immI w
  | .s => immS w
  | .b => immB w
  | .u => immU w
  | .j => immJ w
  | .r | .none => 0

end Word

structure Instruction where
  raw : Word
  opcode : BitVec 7
  format : Format
  rd : Reg
  rs1 : Reg
  rs2 : Reg
  funct3 : BitVec 3
  funct7 : BitVec 7
  imm : Word
  deriving DecidableEq

def decode (w : Word) : Instruction :=
  let opcode := Word.opcode w
  let format := Format.ofBits opcode
  { raw := w
    opcode := opcode
    format := format
    rd := if format.writesRd then Word.rd w else 0
    rs1 := if format.readsRs1 then Word.rs1 w else 0
    rs2 := if format.readsRs2 then Word.rs2 w else 0
    funct3 := Word.funct3 w
    funct7 := Word.funct7 w
    imm := Word.imm w format }

namespace Instruction

def opcode? (d : Instruction) : Option Opcode :=
  Opcode.ofBits? d.opcode

end Instruction

end FiveStage
