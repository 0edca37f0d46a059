import FiveStage.Json.Value

/-!
# The grammar of JSON

Every rule relates a text to what stands at its beginning and to the rest of
the text behind that. A value has many texts: blanks may stand between any two
tokens, characters in strings may be escaped, and exponents have several forms.
An escaped surrogate stands only in a pair.
-/

set_option autoImplicit false

namespace FiveStage.Json

inductive Blanks : List Char → List Char → Prop where
  | none {r} : Blanks r r
  | more {c l r} (blank : c = ' ' ∨ c = '\t' ∨ c = '\n' ∨ c = '\r') (rest : Blanks l r) :
    Blanks (c :: l) r

inductive HexDigit (d : Nat) : Char → Prop where
  | lower (h : d < 16) : HexDigit d d.digitChar
  | upper (h : d < 16) : HexDigit d d.digitChar.toUpper

inductive Code : Nat → List Char → List Char → Prop where
  | digits {a b c d : Nat} {w x y z : Char} {r} (ha : HexDigit a w) (hb : HexDigit b x)
    (hc : HexDigit c y) (hd : HexDigit d z) :
    Code (0x1000 * a + 0x100 * b + 0x10 * c + d) (w :: x :: y :: z :: r) r

def escapes : List (Char × Char) :=
  [('"', '"'), ('\\', '\\'), ('/', '/'), ('b', '\x08'), ('f', '\x0c'), ('n', '\n'), ('r', '\r'),
    ('t', '\t')]

/-- A character in a string: as it is, by a letter, or by its code in UTF-16. -/
inductive Character (c : Char) : List Char → List Char → Prop where
  | plain {r} (control : 0x20 ≤ c.toNat) (quote : c ≠ '"') (backslash : c ≠ '\\') :
    Character c (c :: r) r
  | escaped {e r} (h : (e, c) ∈ escapes) : Character c ('\\' :: e :: r) r
  | coded {l r} (h : Code c.toNat l r) : Character c ('\\' :: 'u' :: l) r
  | paired {l k r} (h : 0x10000 ≤ c.toNat)
    (high : Code (0xD800 + (c.toNat - 0x10000) / 0x400) l ('\\' :: 'u' :: k))
    (low : Code (0xDC00 + (c.toNat - 0x10000) % 0x400) k r) :
    Character c ('\\' :: 'u' :: l) r

inductive Characters : List Char → List Char → List Char → Prop where
  | none {r} : Characters [] r r
  | more {c s l k r} (first : Character c l k) (rest : Characters s k r) : Characters (c :: s) l r

inductive Quoted (s : String) : List Char → List Char → Prop where
  | chars {l r} (h : Characters s.toList l ('"' :: r)) : Quoted s ('"' :: l) r

structure Digits (ds l r : List Char) : Prop where
  nonempty : ds ≠ []
  digit : ∀ c ∈ ds, c.isDigit = true
  text : l = ds ++ r

inductive Fraction : Option (List Char) → List Char → List Char → Prop where
  | none {r} : Fraction none r r
  | point {ds l r} (h : Digits ds l r) : Fraction (some ds) ('.' :: l) r

inductive Sign : Bool → List Char → List Char → Prop where
  | none {r} : Sign false r r
  | plus {r} : Sign false ('+' :: r) r
  | minus {r} : Sign true ('-' :: r) r

inductive Exponent : Option Int → List Char → List Char → Prop where
  | none {r} : Exponent none r r
  | power {e negative ds l k r} (mark : e = 'e' ∨ e = 'E') (sign : Sign negative l k)
    (h : Digits ds k r) :
    Exponent (some ((if negative then -1 else 1) * Nat.ofDigitChars 10 ds 0)) (e :: l) r

/-- A number, without leading zeros and without a plus sign. -/
inductive Numeral.Written (n : Numeral) : List Char → List Char → Prop where
  | parts {k m r} (fraction : Fraction n.fraction k m) (exponent : Exponent n.exponent m r) :
    Written n ((if n.negative then ['-'] else []) ++ Nat.toDigits 10 n.whole ++ k) r

mutual

inductive Value.Written : Value → List Char → List Char → Prop where
  | null {r} : Value.Written .null ('n' :: 'u' :: 'l' :: 'l' :: r) r
  | yes {r} : Value.Written (.bool true) ('t' :: 'r' :: 'u' :: 'e' :: r) r
  | no {r} : Value.Written (.bool false) ('f' :: 'a' :: 'l' :: 's' :: 'e' :: r) r
  | number {n l r} (h : n.Written l r) : Value.Written (.number n) l r
  | string {s l r} (h : Quoted s l r) : Value.Written (.string s) l r
  | emptyArray {l r} (h : Blanks l (']' :: r)) : Value.Written (.array []) ('[' :: l) r
  | array {vs l r} (h : Elements vs l r) : Value.Written (.array vs) ('[' :: l) r
  | emptyObject {l r} (h : Blanks l ('\x7d' :: r)) : Value.Written (.object []) ('\x7b' :: l) r
  | object {ms l r} (h : Members ms l r) : Value.Written (.object ms) ('\x7b' :: l) r

inductive Padded : Value → List Char → List Char → Prop where
  | value {v l k m r} (before : Blanks l k) (value : v.Written k m) (after : Blanks m r) :
    Padded v l r

/-- The elements of an array, with what closes it. -/
inductive Elements : List Value → List Char → List Char → Prop where
  | last {v l r} (value : Padded v l (']' :: r)) : Elements [v] l r
  | more {v vs l k r} (value : Padded v l (',' :: k)) (rest : Elements vs k r) :
    Elements (v :: vs) l r

inductive Named : String → Value → List Char → List Char → Prop where
  | member {s v l k m n r} (before : Blanks l k) (name : Quoted s k m)
    (colon : Blanks m (':' :: n)) (value : Padded v n r) : Named s v l r

inductive Members : List (String × Value) → List Char → List Char → Prop where
  | last {s v l r} (member : Named s v l ('\x7d' :: r)) : Members [(s, v)] l r
  | more {s v ms l k r} (member : Named s v l (',' :: k)) (rest : Members ms k r) :
    Members ((s, v) :: ms) l r

end

/-- A text that holds a value and nothing else. -/
def Document (v : Value) (text : String) : Prop :=
  Padded v text.toList []

end FiveStage.Json
