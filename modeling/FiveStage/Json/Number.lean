import FiveStage.Json.Failure

/-!
# Numbers in JSON

Digits are taken into a significand of 64 bits as long as they fit. A plain
whole number that fits is kept as it is; any other number becomes a double: its
significand, rounded, is multiplied or divided by a power of ten and rounded
again. A number too large for a double is malformed.
-/

set_option autoImplicit false

namespace FiveStage.Json

abbrev Reader (α : Type) := List Char → Except Failure (α × List Char)

inductive Number where
  | integer (n : Int)
  | float (x : Float)

def Number.found : Number → Found
  | integer n => .integer n
  | float x => .float x

namespace Number

def isDigit (c : Char) : Bool :=
  '0' ≤ c && c ≤ '9'

def digitValue (c : Char) : Nat :=
  c.toNat - '0'.toNat

/-- Appends digits to a significand until one does not fit; the digits from
there on are left over. -/
def absorb : Nat → List Char → Nat × List Char
  | s, [] => (s, [])
  | s, c :: cs =>
    let next := s * 10 + digitValue c
    if next < Nat.pow 2 64 then absorb next cs else (s, c :: cs)

def toDouble (n : Nat) : Float :=
  n.toUInt64.toFloat

def powerOfTen (e : Nat) : Float :=
  Float.ofScientific 1 false e

/-- Divides by ten to the `e`, at most by ten to the 308 at a time. -/
def scaleDown (x : Float) (e : Nat) : Float :=
  if e ≤ 308 then x / powerOfTen e
  else if x == 0 then x
  else scaleDown (x / powerOfTen 308) (e - 308)
termination_by e

def scaleUp? (x : Float) (e : Nat) : Option Float :=
  if e ≤ 308 then
    let y := x * powerOfTen e
    if y.isInf then none else some y
  else if x == 0 then some x
  else none

def double? (negative : Bool) (significand : Nat) (exponent : Int) : Option Float :=
  let x := toDouble significand
  let y :=
    if 0 ≤ exponent then scaleUp? x exponent.toNat
    else some (scaleDown x (-exponent).toNat)
  y.map fun y => if negative then -y else y

def readWhole : Reader (List Char)
  | '0' :: cs => if (cs.takeWhile isDigit).isEmpty then .ok (['0'], cs) else .error .malformed
  | cs =>
    let ds := cs.takeWhile isDigit
    if ds.isEmpty then .error .malformed else .ok (ds, cs.dropWhile isDigit)

def readFraction : Reader (Option (List Char))
  | '.' :: cs =>
    let ds := cs.takeWhile isDigit
    if ds.isEmpty then .error .malformed else .ok (some ds, cs.dropWhile isDigit)
  | cs => .ok (none, cs)

def readSign : List Char → Bool × List Char
  | '+' :: cs => (false, cs)
  | '-' :: cs => (true, cs)
  | cs => (false, cs)

def readExponent : Reader (Option Int)
  | cs =>
    let power (cs : List Char) : Except Failure (Option Int × List Char) :=
      let (negative, cs) := readSign cs
      let ds := cs.takeWhile isDigit
      let e : Int := ds.foldl (fun n c => n * 10 + digitValue c) 0
      if ds.isEmpty then .error .malformed
      else .ok (some (if negative then -e else e), cs.dropWhile isDigit)
    match cs with
    | 'e' :: cs => power cs
    | 'E' :: cs => power cs
    | cs => .ok (none, cs)

/-- A plain whole number, kept if it is a 64-bit integer. Minus zero is not. -/
def plain? (negative : Bool) (n : Nat) : Option Int :=
  if !negative then some n
  else if 0 < n ∧ n ≤ Nat.pow 2 63 then some (-n)
  else none

def ofDigits? (negative : Bool) (whole : List Char) (fraction : Option (List Char))
    (power : Option Int) : Option Number :=
  let (s, dropped) := absorb 0 whole
  let kept : Option Int :=
    if fraction.isNone && power.isNone && dropped.isEmpty then plain? negative s else none
  match kept with
  | some n => some (integer n)
  | none =>
    let (s', left) := absorb s (fraction.getD [])
    let taken := (fraction.getD []).length - left.length
    (double? negative s' (dropped.length - taken + power.getD 0)).map float

def readUnsigned (negative : Bool) : Reader Number := fun cs => do
  let (whole, cs) ← readWhole cs
  let (fraction, cs) ← readFraction cs
  let (power, cs) ← readExponent cs
  match ofDigits? negative whole fraction power with
  | some n => .ok (n, cs)
  | none => .error .malformed

def read : Reader Number
  | '-' :: cs => readUnsigned true cs
  | cs => readUnsigned false cs

end Number

end FiveStage.Json
