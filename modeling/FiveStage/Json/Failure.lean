import FiveStage.Text.Quoted
import FiveStage.Decimal.Shortest

/-!
# Why a document is refused

A document is malformed, or it is JSON so far but holds something that the
record read from it does not allow.
-/

set_option autoImplicit false

namespace FiveStage.Json

inductive Found where
  | null
  | bool (b : Bool)
  | integer (n : Int)
  | float (x : Float)
  | string (s : String)
  | sequence
  | map

inductive Failure where
  | malformed
  | unknownField (name : String) (known : List String)
  | duplicateField (name : String)
  | wrongType (found : Found) (expected : String)
  | outOfRange (n : Int) (expected : String)

def Found.text : Found → String
  | null => "null"
  | bool b => "boolean `" ++ (if b then "true" else "false") ++ "`"
  | integer n => "integer `" ++ Text.integer n ++ "`"
  | float x => "floating point `" ++ Decimal.shortestText x ++ "`"
  | string s => "string " ++ Text.quoted s
  | sequence => "sequence"
  | map => "map"

def backquoted (name : String) : String :=
  "`" ++ name ++ "`"

def expectation (known : List String) : String :=
  match known with
  | [] => "there are no fields"
  | [a] => "expected " ++ backquoted a
  | [a, b] => "expected " ++ backquoted a ++ " or " ++ backquoted b
  | names => "expected one of " ++ String.intercalate ", " (names.map backquoted)

namespace Failure

def reason? : Failure → Option String
  | malformed => none
  | unknownField name known =>
    some ("unknown field " ++ backquoted name ++ ", " ++ expectation known)
  | duplicateField name => some ("duplicate field " ++ backquoted name)
  | wrongType found expected => some ("invalid type: " ++ found.text ++ ", expected " ++ expected)
  | outOfRange n expected =>
    some ("invalid value: " ++ (Found.integer n).text ++ ", expected " ++ expected)

end Failure

end FiveStage.Json
