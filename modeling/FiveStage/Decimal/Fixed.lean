import FiveStage.Decimal.Binary64
import FiveStage.Text.Numeral

/-!
# A fixed number of decimal places

The exact value is rounded to the nearest decimal of that many places. A value
half way between two decimals goes to the one with the even last digit.
-/

set_option autoImplicit false

namespace FiveStage.Decimal

/-- The whole number nearest to a quotient, the even one of two. -/
def roundDiv (num den : Nat) : Nat :=
  let q := num / den
  let twice := 2 * (num % den)
  if twice < den ∨ (twice = den ∧ q % 2 = 0) then q else q + 1

def units (places : Nat) (x : Binary64) : Nat :=
  let (up, down) := Binary64.scale x.exponent
  roundDiv (x.significand * Nat.pow 10 places * up) down

def fixed (places : Nat) (x : Float) : String :=
  let b := Binary64.ofFloat x
  let n := units places b
  let unit := Nat.pow 10 places
  (if b.negative then "-" else "") ++ Text.decimal (n / unit) ++ "."
    ++ String.ofList ((Nat.toDigits 10 (n % unit)).leftpad places '0')

end FiveStage.Decimal
