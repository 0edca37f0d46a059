import FiveStage.Word
import FiveStage.Text.Numeral

/-!
# Traps

The causes for which an instruction is not carried out. Each carries the
address at fault, or the word in the case of an illegal instruction.
-/

set_option autoImplicit false

namespace FiveStage

inductive Trap where
  | instructionAddressMisaligned (addr : Word)
  | instructionAccessFault (addr : Word)
  | illegalInstruction (word : Word)
  | loadAddressMisaligned (addr : Word)
  | loadAccessFault (addr : Word)
  | storeAddressMisaligned (addr : Word)
  | storeAccessFault (addr : Word)
  deriving DecidableEq

namespace Trap

def name : Trap → String
  | instructionAddressMisaligned _ => "InstructionAddressMisaligned"
  | instructionAccessFault _ => "InstructionAccessFault"
  | illegalInstruction _ => "IllegalInstruction"
  | loadAddressMisaligned _ => "LoadAddressMisaligned"
  | loadAccessFault _ => "LoadAccessFault"
  | storeAddressMisaligned _ => "StoreAddressMisaligned"
  | storeAccessFault _ => "StoreAccessFault"

def value : Trap → Word
  | instructionAddressMisaligned a => a
  | instructionAccessFault a => a
  | illegalInstruction w => w
  | loadAddressMisaligned a => a
  | loadAccessFault a => a
  | storeAddressMisaligned a => a
  | storeAccessFault a => a

/-- Instruction words are shown with all their digits, addresses without
leading zeros. -/
def text (t : Trap) : String :=
  let shown := match t with
    | illegalInstruction w => Text.hex8 w.toNat
    | t => Text.hex t.value.toNat
  t.name ++ "(" ++ shown ++ ")"

def causes (v : Word) : List Trap :=
  [instructionAddressMisaligned v, instructionAccessFault v, illegalInstruction v,
   loadAddressMisaligned v, loadAccessFault v, storeAddressMisaligned v, storeAccessFault v]

def ofName? (name : String) (v : Word) : Option Trap :=
  (causes v).find? fun t => t.name == name

end Trap

end FiveStage
