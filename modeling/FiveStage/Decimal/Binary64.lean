/-!
# Binary floating point, taken apart

A finite double is a sign, a whole significand and a power of two. Every text
of a double is computed from these by exact arithmetic.
-/

set_option autoImplicit false

namespace FiveStage

/-- The value is the significand times two to the exponent, with its sign. -/
structure Binary64 where
  negative : Bool
  significand : Nat
  exponent : Int
  deriving DecidableEq

namespace Binary64

/-- Numbers whose stored exponent is zero have no hidden bit. -/
def ofBits (b : UInt64) : Binary64 :=
  let n : Nat := b.toNat
  let stored : Nat := n / Nat.pow 2 52 % Nat.pow 2 11
  let fraction : Nat := n % Nat.pow 2 52
  { negative := Nat.pow 2 63 ≤ n
    significand := if stored = 0 then fraction else fraction + Nat.pow 2 52
    exponent := if stored = 0 then -1074 else (stored : Int) - 1075 }

def ofFloat (x : Float) : Binary64 :=
  ofBits x.toBits

def scale (e : Int) : Nat × Nat :=
  (Nat.pow 2 e.toNat, Nat.pow 2 (-e).toNat)

end Binary64

end FiveStage
