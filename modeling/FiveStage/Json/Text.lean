import FiveStage.Json.Number

/-!
# Strings in JSON

The reader starts behind the opening quote. Control characters have to be
escaped, and an escaped code beyond the first sixteen bits is a pair of
surrogates.
-/

set_option autoImplicit false

namespace FiveStage.Json

def hexDigit? (c : Char) : Option Nat :=
  if '0' ≤ c ∧ c ≤ '9' then some (c.toNat - '0'.toNat)
  else if 'a' ≤ c ∧ c ≤ 'f' then some (c.toNat - 'a'.toNat + 10)
  else if 'A' ≤ c ∧ c ≤ 'F' then some (c.toNat - 'A'.toNat + 10)
  else none

def hexCode? (a b c d : Char) : Option Nat := do
  let a ← hexDigit? a
  let b ← hexDigit? b
  let c ← hexDigit? c
  let d ← hexDigit? d
  return ((a * 16 + b) * 16 + c) * 16 + d

def escape? : Char → Option Char
  | '"' => some '"'
  | '\\' => some '\\'
  | '/' => some '/'
  | 'b' => some '\x08'
  | 'f' => some '\x0c'
  | 'n' => some '\n'
  | 'r' => some '\r'
  | 't' => some '\t'
  | _ => none

def isHigh (n : Nat) : Bool :=
  0xD800 ≤ n && n < 0xDC00

def isLow (n : Nat) : Bool :=
  0xDC00 ≤ n && n < 0xE000

def joinSurrogates (high low : Nat) : Char :=
  Char.ofNat (0x10000 + (high - 0xD800) * 0x400 + (low - 0xDC00))

def readChars : Reader (List Char)
  | [] => .error .malformed
  | '"' :: cs => .ok ([], cs)
  | '\\' :: 'u' :: a :: b :: c :: d :: cs =>
    match hexCode? a b c d with
    | none => .error .malformed
    | some n =>
      if isLow n then .error .malformed
      else if isHigh n then
        match cs with
        | '\\' :: 'u' :: a :: b :: c :: d :: cs =>
          match hexCode? a b c d with
          | none => .error .malformed
          | some m =>
            if isLow m then (readChars cs).map fun (s, r) => (joinSurrogates n m :: s, r)
            else .error .malformed
        | _ => .error .malformed
      else (readChars cs).map fun (s, r) => (Char.ofNat n :: s, r)
  | '\\' :: e :: cs =>
    match escape? e with
    | none => .error .malformed
    | some c => (readChars cs).map fun (s, r) => (c :: s, r)
  | c :: cs =>
    if c.toNat < 32 ∨ c = '\\' then .error .malformed
    else (readChars cs).map fun (s, r) => (c :: s, r)

def readString : Reader String := fun cs =>
  (readChars cs).map fun (s, r) => (String.ofList s, r)

end FiveStage.Json
