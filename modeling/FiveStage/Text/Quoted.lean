import FiveStage.Text.Hidden
import FiveStage.Text.Numeral

/-!
# Quoted text

Text between double quotes in which every character can be seen: quotes and
backslashes are escaped, common controls have a letter, and other characters
that would not be visible are given by their code.
-/

set_option autoImplicit false

namespace FiveStage.Text

def codeEscape (c : Char) : List Char :=
  ['\\', 'u', '\x7b'] ++ Nat.toDigits 16 c.toNat ++ ['\x7d']

def escapeChar (c : Char) : List Char :=
  match c with
  | '\x00' => ['\\', '0']
  | '\t' => ['\\', 't']
  | '\n' => ['\\', 'n']
  | '\r' => ['\\', 'r']
  | '"' => ['\\', '"']
  | '\\' => ['\\', '\\']
  | c =>
    if c.toNat < 32 ∨ c.toNat = 127 then codeEscape c
    else if c.toNat < 127 then [c]
    else if isHidden c then codeEscape c
    else [c]

def quoted (s : String) : String :=
  String.ofList ('"' :: s.toList.flatMap escapeChar ++ ['"'])

end FiveStage.Text
