import FiveStage.Decimal.Binary64
import FiveStage.Text.Numeral

/-!
# The fewest digits that read back

Of the decimals that round to a given double, the one with the fewest digits
is written, and of several with that many digits the one nearest to the
double. Moderate magnitudes are written positionally and always with a point,
others with an exponent that has a sign.
-/

set_option autoImplicit false

namespace FiveStage.Decimal

/-- A nonzero double and the ends of the interval that rounds to it, as whole
multiples of a common unit `up / down`. The interval below a power of two is
half as wide, and the ends belong to it when the significand is even. -/
structure Interval where
  low : Nat
  value : Nat
  high : Nat
  up : Nat
  down : Nat
  closed : Bool

def Interval.ofBinary (x : Binary64) : Interval :=
  let narrow := x.significand = Nat.pow 2 52 ∧ -1074 < x.exponent
  let (up, down) := Binary64.scale (x.exponent - 2)
  { low := 4 * x.significand - (if narrow then 1 else 2)
    value := 4 * x.significand
    high := 4 * x.significand + 2
    up := up
    down := down
    closed := x.significand % 2 = 0 }

def magnitude (num den : Nat) : Int :=
  if den ≤ num then (Nat.toDigits 10 (num / den)).length
  else
    let j := (List.range 400).find? fun j => den ≤ num * Nat.pow 10 (j + 1)
    Int.negOfNat (j.getD 0)

/-- The best decimal `c * 10 ^ k` in the interval, for a given `k`. -/
def Interval.best? (v : Interval) (k : Int) : Option Nat :=
  let ten := Nat.pow 10 k.toNat * v.down
  let unit := Nat.pow 10 (-k).toNat * v.up
  let inside (c : Nat) : Bool :=
    if v.closed then v.low * unit ≤ c * ten && c * ten ≤ v.high * unit
    else v.low * unit < c * ten && c * ten < v.high * unit
  let c := v.value * unit / ten
  let lower := if inside c then some c else none
  let upper := if inside (c + 1) then some (c + 1) else none
  match lower, upper with
  | some a, some b =>
    let middle := (2 * c + 1) * ten
    let twice := 2 * (v.value * unit)
    if twice < middle ∨ (twice = middle ∧ a % 2 = 0) then some a else some b
  | some a, none => some a
  | none, b => b

/-- Digits and exponent of the shortest decimal; seventeen digits are always
enough. -/
def shortest (x : Binary64) : Nat × Int :=
  let v := Interval.ofBinary x
  let top := magnitude (v.value * v.up) v.down
  let found := (List.range 17).findSome? fun (d : Nat) =>
    let k := top - (d + 1)
    (v.best? k).map fun c => (c, k)
  found.getD (0, 0)

def dropZeros : Nat → Nat × Int → Nat × Int
  | 0, r => r
  | n + 1, (c, k) => if c ≠ 0 ∧ c % 10 = 0 then dropZeros n (c / 10, k + 1) else (c, k)

def exponentText (e : Int) : String :=
  (if e < 0 then "e-" else "e+") ++ Text.decimal e.natAbs

def layout (digits : List Char) (k : Int) : String :=
  let e := (digits.length : Int) - 1 + k
  if -5 ≤ e ∧ e ≤ 15 then
    if 0 ≤ k then String.ofList (digits ++ List.replicate k.toNat '0') ++ ".0"
    else if 0 ≤ e then
      String.ofList (digits.take (e + 1).toNat) ++ "." ++ String.ofList (digits.drop (e + 1).toNat)
    else "0." ++ String.ofList (List.replicate (-e - 1).toNat '0' ++ digits)
  else
    match digits with
    | [] => ""
    | [d] => String.ofList [d] ++ exponentText e
    | d :: ds => String.ofList (d :: '.' :: ds) ++ exponentText e

def shortestText (x : Float) : String :=
  let b := Binary64.ofFloat x
  let (c, k) := if b.significand = 0 then (0, 0) else dropZeros 20 (shortest b)
  (if b.negative then "-" else "") ++ layout (Nat.toDigits 10 c) k

end FiveStage.Decimal
