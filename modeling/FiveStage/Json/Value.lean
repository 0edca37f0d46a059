/-!
# JSON values

What a document says, apart from its layout. A number keeps its parts as they
are written, since `1` and `1.0` are of different types to a reader. Members
keep their order, and a name may stand for more than one of them.
-/

set_option autoImplicit false

namespace FiveStage.Json

structure Numeral where
  negative : Bool := false
  whole : Nat
  fraction : Option (List Char) := none
  exponent : Option Int := none

inductive Value where
  | null
  | bool (b : Bool)
  | number (n : Numeral)
  | string (s : String)
  | array (vs : List Value)
  | object (ms : List (String × Value))

namespace Value

def natural (n : Nat) : Value :=
  number { whole := n }

end Value

def namesOf (ms : List (String × Value)) : List String :=
  ms.map Prod.fst

end FiveStage.Json
