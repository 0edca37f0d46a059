/-!
# Numerals

The three ways in which numbers are written: in decimal, in hexadecimal, and
in hexadecimal with at least eight digits. Hexadecimal letters are lower case.
-/

set_option autoImplicit false

namespace FiveStage.Text

def decimal (n : Nat) : String :=
  String.ofList (Nat.toDigits 10 n)

def integer : Int → String
  | .ofNat n => decimal n
  | .negSucc n => "-" ++ decimal (n + 1)

def hex (n : Nat) : String :=
  "0x" ++ String.ofList (Nat.toDigits 16 n)

def hex8 (n : Nat) : String :=
  "0x" ++ String.ofList ((Nat.toDigits 16 n).leftpad 8 '0')

theorem decimal_inj {m n : Nat} : decimal m = decimal n ↔ m = n := by
  refine ⟨fun h => ?_, congrArg decimal⟩
  have hd := congrArg (fun s => Nat.ofDigitChars 10 s.toList 0) h
  simpa [decimal] using hd

theorem isDigit_of_mem_decimal {n : Nat} {c : Char} (h : c ∈ (decimal n).toList) :
    c.isDigit = true := by
  rw [decimal, String.toList_ofList] at h
  exact Nat.isDigit_of_mem_toDigits (by decide) (by decide) h

theorem mem_integer {n : Int} {c : Char} (h : c ∈ (integer n).toList) :
    c = '-' ∨ c.isDigit = true := by
  cases n with
  | ofNat n => exact .inr (isDigit_of_mem_decimal h)
  | negSucc n =>
    rw [integer, String.toList_append, List.mem_append] at h
    rcases h with hsign | hdigit
    · exact .inl (List.mem_singleton.mp hsign)
    · exact .inr (isDigit_of_mem_decimal hdigit)

theorem decimal_ne_minus (m n : Nat) : decimal m ≠ "-" ++ decimal n := by
  intro h
  have hsign : '-' ∈ (decimal m).toList := by
    rw [h, String.toList_append]
    exact List.mem_append_left _ (List.mem_singleton_self _)
  exact absurd (isDigit_of_mem_decimal hsign) (by decide)

theorem integer_inj {m n : Int} : integer m = integer n ↔ m = n := by
  refine ⟨fun h => ?_, congrArg integer⟩
  cases m with
  | ofNat m =>
    cases n with
    | ofNat n => exact congrArg Int.ofNat (decimal_inj.mp h)
    | negSucc n => exact absurd h (decimal_ne_minus m (n + 1))
  | negSucc m =>
    cases n with
    | ofNat n => exact absurd h.symm (decimal_ne_minus n (m + 1))
    | negSucc n =>
      have hdigits : decimal (m + 1) = decimal (n + 1) := by
        simpa [integer, ← String.toList_inj] using h
      exact congrArg Int.negSucc (Nat.succ.inj (decimal_inj.mp hdigits))

theorem toDigits_sixteen (n : Nat) : Nat.toDigits 16 n =
    (if n < 16 then [] else Nat.toDigits 16 (n / 16)) ++ [(n % 16).digitChar] := by
  rw [Nat.toDigits_eq_if (by decide)]
  split
  · rename_i hn
    rw [Nat.mod_eq_of_lt hn]
    rfl
  · rfl

theorem isAlphanum_of_mem_sixteen {n : Nat} {c : Char} (h : c ∈ Nat.toDigits 16 n) :
    c.isAlphanum = true := by
  induction n using Nat.strongRecOn with
  | ind n ih =>
    have hdigit : ∀ d : Fin 16, d.val.digitChar.isAlphanum = true := by decide
    rw [toDigits_sixteen, List.mem_append] at h
    rcases h with hfirst | hlast
    · split at hfirst
      · exact absurd hfirst List.not_mem_nil
      · exact ih (n / 16) (by omega) hfirst
    · rw [List.mem_singleton.mp hlast]
      exact hdigit ⟨n % 16, Nat.mod_lt n (by decide)⟩

def sixteens (digits : List Char) : Nat :=
  digits.foldl (fun n c => 16 * n + if c.isDigit then c.toNat - 48 else c.toNat - 87) 0

theorem sixteens_toDigits (n : Nat) : sixteens (Nat.toDigits 16 n) = n := by
  induction n using Nat.strongRecOn with
  | ind n ih =>
    have hdigit : ∀ d : Fin 16, (if d.val.digitChar.isDigit then d.val.digitChar.toNat - 48
        else d.val.digitChar.toNat - 87) = d.val := by decide
    rw [toDigits_sixteen, sixteens, List.foldl_append, ← sixteens, List.foldl_cons, List.foldl_nil,
      hdigit ⟨n % 16, Nat.mod_lt n (by decide)⟩]
    split
    · rename_i hn
      exact (Nat.zero_add _).trans (Nat.mod_eq_of_lt hn)
    · rename_i hn
      rw [ih (n / 16) (by omega)]
      exact Nat.div_add_mod n 16

theorem sixteens_zeros (k : Nat) (digits : List Char) :
    sixteens (List.replicate k '0' ++ digits) = sixteens digits := by
  induction k with
  | zero => rfl
  | succ k ih => exact ih

theorem hex_inj {m n : Nat} : hex m = hex n ↔ m = n := by
  refine ⟨fun h => ?_, congrArg hex⟩
  have hdigits : Nat.toDigits 16 m = Nat.toDigits 16 n := by
    simpa [hex, ← String.toList_inj] using h
  rw [← sixteens_toDigits m, ← sixteens_toDigits n, hdigits]

theorem hex8_inj {m n : Nat} : hex8 m = hex8 n ↔ m = n := by
  refine ⟨fun h => ?_, congrArg hex8⟩
  have hdigits : (Nat.toDigits 16 m).leftpad 8 '0' = (Nat.toDigits 16 n).leftpad 8 '0' := by
    simpa [hex8, ← String.toList_inj] using h
  have hvalue := congrArg sixteens hdigits
  rwa [List.leftpad, List.leftpad, sixteens_zeros, sixteens_zeros, sixteens_toDigits,
    sixteens_toDigits] at hvalue

end FiveStage.Text
