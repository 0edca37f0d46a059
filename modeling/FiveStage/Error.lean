import FiveStage.Config.Basic
import FiveStage.Elf.Header
import FiveStage.Json.Failure
import FiveStage.Machine.Core

/-!
# Errors

Every way in which a simulation fails, with the text that is shown for it.
-/

set_option autoImplicit false

namespace FiveStage

inductive Error where
  | stop (s : Stop)
  | config (v : Config.Violation)
  | json (f : Json.Failure)
  | missingFile
  | elf (p : Elf.Problem)
  | tooLarge (addr : Word) (length : Nat)

namespace Error

def configText (reason : String) : String :=
  "invalid configuration: " ++ reason

def jsonText (reason : String) : String :=
  "failed to parse configuration: " ++ reason

def fileText (reason : String) : String :=
  "I/O error: " ++ reason

def elfText (reason : String) : String :=
  "invalid ELF image: " ++ reason

end Error

def Stop.text : Stop → String
  | trap pc cause => "trap " ++ cause.text ++ " committed at pc=" ++ Text.hex8 pc.toNat
  | noRegister r => "there is no register " ++ Text.decimal r
  | cycleLimit n => "cycle limit of " ++ Text.decimal n.toNat ++ " reached without halting"

def Error.text : Error → String
  | stop s => s.text
  | config v => configText v.text
  | json f => jsonText (f.reason?.getD "malformed JSON")
  | missingFile => fileText "No such file or directory (os error 2)"
  | elf p => elfText p.text
  | tooLarge addr n =>
    "program of " ++ Text.decimal n ++ " bytes does not fit in RAM at " ++ Text.hex8 addr.toNat

end FiveStage
