import FiveStage.Json.Text

/-!
# Scalars in JSON

Readers of truth values and of numbers. Each refuses a value of another type
by saying what it found; a value of another type is read as far as it takes to
say so, and a sequence or an object is not read at all.
-/

set_option autoImplicit false

namespace FiveStage.Json

def isBlank (c : Char) : Bool :=
  c = ' ' ∨ c = '\t' ∨ c = '\n' ∨ c = '\r'

def skipBlanks (cs : List Char) : List Char :=
  cs.dropWhile isBlank

def stripWord? (w : String) (cs : List Char) : Option (List Char) :=
  if w.toList.isPrefixOf cs then some (cs.drop w.length) else none

def mismatch (expected : String) (cs : List Char) : Failure :=
  let word (w : String) (found : Found) : Failure :=
    if (stripWord? w cs).isSome then .wrongType found expected else .malformed
  match cs with
  | 'n' :: _ => word "null" .null
  | 't' :: _ => word "true" (.bool true)
  | 'f' :: _ => word "false" (.bool false)
  | '[' :: _ => .wrongType .sequence expected
  | '\x7b' :: _ => .wrongType .map expected
  | '"' :: cs =>
    match readString cs with
    | .ok (s, _) => .wrongType (.string s) expected
    | .error e => e
  | c :: _ =>
    if c = '-' ∨ Number.isDigit c then
      match Number.read cs with
      | .ok (n, _) => .wrongType n.found expected
      | .error e => e
    else .malformed
  | [] => .malformed

def readBool : Reader Bool := fun cs =>
  let cs := skipBlanks cs
  match stripWord? "true" cs with
  | some cs => .ok (true, cs)
  | none =>
    match stripWord? "false" cs with
    | some cs => .ok (false, cs)
    | none => .error (mismatch "a boolean" cs)

def readNat (limit : Nat) (expected : String) : Reader Nat := fun cs =>
  let cs := skipBlanks cs
  match cs with
  | c :: _ =>
    if c = '-' ∨ Number.isDigit c then
      match Number.read cs with
      | .ok (.integer n, cs) =>
        if 0 ≤ n ∧ n < limit then .ok (n.toNat, cs) else .error (.outOfRange n expected)
      | .ok (.float x, _) => .error (.wrongType (.float x) expected)
      | .error e => .error e
    else .error (mismatch expected cs)
  | [] => .error .malformed

def readOption {α : Type} (read : Reader α) : Reader (Option α) := fun cs =>
  let cs := skipBlanks cs
  match cs with
  | 'n' :: _ =>
    match stripWord? "null" cs with
    | some cs => .ok (none, cs)
    | none => .error .malformed
  | _ => (read cs).map fun (a, r) => (some a, r)

end FiveStage.Json
