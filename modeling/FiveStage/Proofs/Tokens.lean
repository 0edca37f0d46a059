import FiveStage.Json.Grammar
import FiveStage.Json.Record

/-!
# Reading tokens

Blanks, strings and numbers are read as the grammar of JSON has them written:
each reader takes exactly the text of its token and leaves the rest. Whole
numbers of 64 bits are read exactly; nothing is said here about the others but
that they are no whole numbers to the reader.
-/

set_option autoImplicit false

namespace FiveStage.Json

variable {c : Char} {l k r : List Char}

theorem isBlank_iff : isBlank c = true ↔ c = ' ' ∨ c = '\t' ∨ c = '\n' ∨ c = '\r' := by
  simp [isBlank]

theorem skipBlanks_cons (hc : isBlank c = false) : skipBlanks (c :: r) = c :: r :=
  List.dropWhile_cons_of_neg (Bool.eq_false_iff.mp hc)

theorem Blanks.skip (h : Blanks l r) : skipBlanks l = skipBlanks r := by
  induction h with
  | none => rfl
  | more blank _ ih =>
    exact (List.dropWhile_cons_of_pos (isBlank_iff.mpr blank)).trans ih

theorem Blanks.skip_cons (h : Blanks l (c :: r)) (hc : isBlank c = false) :
    skipBlanks l = c :: r :=
  h.skip.trans (skipBlanks_cons hc)

theorem Blanks.expect (h : Blanks l (c :: r)) (hc : isBlank c = false) :
    expectChar c l = .ok r := by
  rw [expectChar, h.skip_cons hc]
  exact if_pos rfl

/-- What may stand behind a value: a blank, a separator, a bracket, or nothing. -/
def Ends (r : List Char) : Prop :=
  ∀ c ∈ r.head?, isBlank c = true ∨ c = ',' ∨ c = ']' ∨ c = '\x7d'

theorem Blanks.ends (h : Blanks l r) (hr : Ends r) : Ends l := by
  cases h with
  | none => exact hr
  | more blank _ =>
    intro d hd
    obtain rfl : _ = d := Option.some.inj hd
    exact .inl (isBlank_iff.mpr blank)

theorem HexDigit.read {d : Nat} (h : HexDigit d c) : d < 16 ∧ hexDigit? c = some d := by
  have hlower : ∀ d : Fin 16, hexDigit? d.val.digitChar = some d.val := by decide
  have hupper : ∀ d : Fin 16, hexDigit? d.val.digitChar.toUpper = some d.val := by decide
  cases h with
  | lower h => exact ⟨h, hlower ⟨d, h⟩⟩
  | upper h => exact ⟨h, hupper ⟨d, h⟩⟩

theorem Code.read {n : Nat} (h : Code n l r) :
    ∃ w x y z, l = w :: x :: y :: z :: r ∧ hexCode? w x y z = some n := by
  cases h with
  | digits ha hb hc hd =>
    refine ⟨_, _, _, _, rfl, ?_⟩
    simp only [hexCode?, ha.read.2, hb.read.2, hc.read.2, hd.read.2, Option.bind_eq_bind,
      Option.bind_some, Option.pure_def, Option.some.injEq]
    omega

/-- No character is half of a pair of surrogates. -/
theorem char_range (c : Char) : c.toNat < 0xD800 ∨ 0xE000 ≤ c.toNat ∧ c.toNat < 0x110000 := by
  rcases c.valid with h | ⟨hlow, hhigh⟩
  · exact .inl h
  · exact .inr ⟨hlow, hhigh⟩

theorem isHigh_iff {n : Nat} : isHigh n = true ↔ 0xD800 ≤ n ∧ n < 0xDC00 := by
  simp [isHigh]

theorem isLow_iff {n : Nat} : isLow n = true ↔ 0xDC00 ≤ n ∧ n < 0xE000 := by
  simp [isLow]

theorem escape?_of_mem {e : Char} (h : (e, c) ∈ escapes) : e ≠ 'u' ∧ escape? e = some c := by
  have hall : ∀ p ∈ escapes, p.1 ≠ 'u' ∧ escape? p.1 = some p.2 := by decide
  exact hall (e, c) h

/-- A character is read as the first of the string, however it is written. -/
theorem Character.read (h : Character c l r) :
    readChars l = (readChars r).map fun (s, rest) => (c :: s, rest) := by
  have hrange := char_range c
  cases h with
  | plain control quote backslash =>
    rw [readChars.eq_5 _ _ (fun h => quote h) (fun _ _ _ _ _ h _ => backslash h)
      (fun _ _ h _ => backslash h), if_neg]
    rintro (hlt | heq)
    · omega
    · exact backslash heq
  | escaped h =>
    obtain ⟨hu, hc⟩ := escape?_of_mem h
    rw [readChars.eq_4 _ _ fun _ _ _ _ _ h _ => hu h, hc]
  | coded h =>
    obtain ⟨w, x, y, z, rfl, hcode⟩ := h.read
    have hlow : ¬isLow c.toNat = true := by rw [isLow_iff]; omega
    have hhigh : ¬isHigh c.toNat = true := by rw [isHigh_iff]; omega
    rw [readChars.eq_3, hcode]
    simp only [if_neg hlow, if_neg hhigh, Char.ofNat_toNat]
  | paired h high low =>
    obtain ⟨w, x, y, z, rfl, hcode⟩ := high.read
    obtain ⟨w', x', y', z', rfl, hcode'⟩ := low.read
    have hbound : (c.toNat - 0x10000) / 0x400 < 0x400 := by omega
    have hnotLow : ¬isLow (0xD800 + (c.toNat - 0x10000) / 0x400) = true := by
      rw [isLow_iff]; omega
    have hhigh : isHigh (0xD800 + (c.toNat - 0x10000) / 0x400) = true := by
      rw [isHigh_iff]; omega
    have hlow : isLow (0xDC00 + (c.toNat - 0x10000) % 0x400) = true := by
      rw [isLow_iff]; omega
    have hjoin : joinSurrogates (0xD800 + (c.toNat - 0x10000) / 0x400)
        (0xDC00 + (c.toNat - 0x10000) % 0x400) = c := by
      rw [joinSurrogates, show 0x10000 + (0xD800 + (c.toNat - 0x10000) / 0x400 - 0xD800) * 0x400 +
        (0xDC00 + (c.toNat - 0x10000) % 0x400 - 0xDC00) = c.toNat by omega, Char.ofNat_toNat]
    rw [readChars.eq_3, hcode]
    simp only [if_neg hnotLow, if_pos hhigh, hcode', if_pos hlow, hjoin]

theorem Characters.read {s : List Char} (h : Characters s l k) (hk : k = '"' :: r) :
    readChars l = .ok (s, r) := by
  induction h with
  | none => rw [hk, readChars]
  | more first _ ih => rw [first.read, ih hk]; rfl

theorem Quoted.read {s : String} (h : Quoted s l r) : ∃ k, l = '"' :: k ∧ readString k = .ok (s, r) := by
  cases h with
  | chars h =>
    refine ⟨_, rfl, ?_⟩
    rw [readString, h.read rfl]
    simp [Except.map]

def NoDigit (r : List Char) : Prop :=
  ∀ c ∈ r.head?, Number.isDigit c = false

theorem NoDigit.takeWhile (hr : NoDigit r) : r.takeWhile Number.isDigit = [] := by
  cases r with
  | nil => rfl
  | cons c r => exact List.takeWhile_cons_of_neg (Bool.eq_false_iff.mp (hr c rfl))

theorem NoDigit.dropWhile (hr : NoDigit r) : r.dropWhile Number.isDigit = r := by
  cases r with
  | nil => rfl
  | cons c r => exact List.dropWhile_cons_of_neg (Bool.eq_false_iff.mp (hr c rfl))

theorem Ends.noDigit (hr : Ends r) : NoDigit r := by
  intro c hc
  rcases hr c hc with hblank | rfl | rfl | rfl
  · rcases isBlank_iff.mp hblank with rfl | rfl | rfl | rfl <;> decide
  all_goals decide

theorem Ends.not_more (hr : Ends r) (hc : c = '.' ∨ c = 'e' ∨ c = 'E') (k : List Char) :
    r ≠ c :: k := by
  rintro rfl
  have hends := hr c rfl
  rcases hc with rfl | rfl | rfl <;> revert hends <;> decide

theorem Digits.takeWhile {ds : List Char} (h : Digits ds l r) (hr : NoDigit r) :
    l.takeWhile Number.isDigit = ds ∧ l.dropWhile Number.isDigit = r := by
  have hdigit : ∀ c ∈ ds, Number.isDigit c = true := h.digit
  rw [h.text]
  constructor
  · rw [List.takeWhile_append_of_pos hdigit, hr.takeWhile, List.append_nil]
  · rw [List.dropWhile_append_of_pos hdigit, hr.dropWhile]

/-- A whole number does not begin with a zero, unless it is zero. -/
theorem toDigits_ne_zero {n : Nat} (hn : 0 < n) (k r : List Char) :
    Nat.toDigits 10 n ++ r ≠ '0' :: k := by
  induction n using Nat.strongRecOn generalizing r with
  | ind n ih =>
    rw [Nat.toDigits_eq_if (by decide)]
    split
    · rename_i hlt
      have hdigit : ∀ d : Fin 10, 0 < d.val → d.val.digitChar ≠ '0' := by decide
      exact fun h => hdigit ⟨n, hlt⟩ hn (List.cons.inj h).1
    · rw [List.append_assoc]
      exact ih (n / 10) (by omega) (by omega) _

theorem digits_toDigits (n : Nat) (r : List Char) :
    Digits (Nat.toDigits 10 n) (Nat.toDigits 10 n ++ r) r where
  nonempty := Nat.toDigits_ne_nil
  digit := fun _ hc => Nat.isDigit_of_mem_toDigits (by decide) (by decide) hc
  text := rfl

theorem readWhole_toDigits (n : Nat) (hr : NoDigit r) :
    Number.readWhole (Nat.toDigits 10 n ++ r) = .ok (Nat.toDigits 10 n, r) := by
  rcases Nat.eq_zero_or_pos n with rfl | hn
  · have hempty : (r.takeWhile Number.isDigit).isEmpty = true := by rw [hr.takeWhile]; rfl
    exact (Number.readWhole.eq_1 r).trans (if_pos hempty)
  · obtain ⟨htake, hdrop⟩ := (digits_toDigits n r).takeWhile hr
    rw [Number.readWhole.eq_2 _ fun k => toDigits_ne_zero hn k r, htake, hdrop, if_neg]
    simp [Nat.toDigits_ne_nil]

theorem Fraction.read {f : Option (List Char)} (h : Fraction f l r) (hr : NoDigit r)
    (hpoint : ∀ k, r ≠ '.' :: k) : Number.readFraction l = .ok (f, r) := by
  cases h with
  | none => exact Number.readFraction.eq_2 _ hpoint
  | point h =>
    obtain ⟨htake, hdrop⟩ := h.takeWhile hr
    rw [Number.readFraction, htake, hdrop, if_neg]
    simp [h.nonempty]

theorem Sign.read {negative : Bool} {ds : List Char} (h : Sign negative l k) (hd : Digits ds k r) :
    Number.readSign l = (negative, k) := by
  cases h with
  | none =>
    obtain ⟨c, ds, rfl⟩ := List.exists_cons_of_ne_nil hd.nonempty
    have hc := hd.digit c List.mem_cons_self
    rw [hd.text, List.cons_append]
    exact Number.readSign.eq_3 _ (fun _ h => by simp_all) (fun _ h => by simp_all)
  | plus => rfl
  | minus => rfl

theorem foldl_digits (ds : List Char) (s : Nat) :
    ds.foldl (fun n c => n * 10 + (Number.digitValue c : Int)) (s : Int) =
      (Nat.ofDigitChars 10 ds s : Int) := by
  induction ds generalizing s with
  | nil => rfl
  | cons c ds ih =>
    have hnext : (s : Int) * 10 + (Number.digitValue c : Int) =
        ((10 * s + (c.toNat - '0'.toNat) : Nat) : Int) := by
      simp only [Number.digitValue]
      omega
    rw [List.foldl_cons, hnext, ih, Nat.ofDigitChars_cons]

theorem Exponent.read {e : Option Int} (h : Exponent e l r) (hr : Ends r) :
    Number.readExponent l = .ok (e, r) := by
  cases h with
  | none =>
    exact Number.readExponent.eq_3 _ (hr.not_more (.inr (.inl rfl))) (hr.not_more (.inr (.inr rfl)))
  | @power e negative ds l k r mark sign h =>
    obtain ⟨htake, hdrop⟩ := h.takeWhile hr.noDigit
    have hsome : ¬ds.isEmpty = true := by simp [h.nonempty]
    have hvalue := foldl_digits ds 0
    rcases mark with rfl | rfl
    all_goals
      simp only [Number.readExponent, sign.read h, htake, hdrop, if_neg hsome]
      cases negative <;> simp [← hvalue]

theorem noDigit_cons (hc : Number.isDigit c = false) : NoDigit (c :: r) := by
  intro d hd
  rwa [← Option.some.inj hd]

/-- The parts of a number do not run into one another. -/
theorem Exponent.apart {e : Option Int} (h : Exponent e l r) (hr : Ends r) :
    NoDigit l ∧ ∀ k, l ≠ '.' :: k := by
  cases h with
  | none => exact ⟨hr.noDigit, hr.not_more (.inl rfl)⟩
  | power mark => rcases mark with rfl | rfl <;> exact ⟨noDigit_cons (by decide), by simp⟩

theorem Fraction.noDigit {f : Option (List Char)} (h : Fraction f l r) (hr : NoDigit r) :
    NoDigit l := by
  cases h with
  | none => exact hr
  | point => exact noDigit_cons (by decide)

theorem le_ofDigitChars (ds : List Char) (s : Nat) : s ≤ Nat.ofDigitChars 10 ds s := by
  rw [Nat.ofDigitChars_eq_ofDigitChars_zero]
  exact Nat.le_add_right_of_le (Nat.le_mul_of_pos_left s (Nat.pow_pos (by decide)))

theorem absorb_fits (ds : List Char) {s : Nat} (h : Nat.ofDigitChars 10 ds s < Nat.pow 2 64) :
    Number.absorb s ds = (Nat.ofDigitChars 10 ds s, []) := by
  induction ds generalizing s with
  | nil => rfl
  | cons c ds ih =>
    rw [Nat.ofDigitChars_cons, Nat.mul_comm] at h ⊢
    rw [Number.absorb]
    exact (if_pos (Nat.lt_of_le_of_lt (le_ofDigitChars ds _) h)).trans (ih h)

theorem fits_of_absorb (ds : List Char) {s : Nat} (hs : s < Nat.pow 2 64)
    (h : (Number.absorb s ds).2 = []) : Nat.ofDigitChars 10 ds s < Nat.pow 2 64 := by
  induction ds generalizing s with
  | nil => exact hs
  | cons c ds ih =>
    rw [Nat.ofDigitChars_cons, Nat.mul_comm]
    rw [Number.absorb] at h
    split at h
    · rename_i hnext
      exact ih hnext h
    · cases h

/-- A number is kept as an integer if it is written as one and its digits fit. -/
theorem ofDigits?_eq_integer_iff {negative : Bool} {w : Nat} {f : Option (List Char)}
    {e : Option Int} {n : Int} :
    Number.ofDigits? negative (Nat.toDigits 10 w) f e = some (.integer n) ↔
      f = none ∧ e = none ∧ w < Nat.pow 2 64 ∧ Number.plain? negative w = some n := by
  have hw : Nat.ofDigitChars 10 (Nat.toDigits 10 w) 0 = w := Nat.ofDigitChars_ten_toDigits
  constructor
  · intro h
    simp only [Number.ofDigits?] at h
    split at h
    · rename_i m hkept
      obtain rfl : m = n := by simpa using h
      rw [Option.ite_none_right_eq_some, Bool.and_eq_true, Bool.and_eq_true,
        Option.isNone_iff_eq_none, Option.isNone_iff_eq_none, List.isEmpty_iff] at hkept
      obtain ⟨⟨⟨hf, he⟩, hdropped⟩, hplain⟩ := hkept
      have hfits := fits_of_absorb _ (by decide) hdropped
      rw [absorb_fits _ hfits] at hplain
      rw [hw] at hfits hplain
      exact ⟨hf, he, hfits, hplain⟩
    · simp at h
  · rintro ⟨rfl, rfl, hlt, hplain⟩
    have habsorb := absorb_fits (Nat.toDigits 10 w) (s := 0) (by rwa [hw])
    simp only [Number.ofDigits?, habsorb, hw, hplain]
    rfl

theorem toDigits_cons (n : Nat) : ∃ c ds, Nat.toDigits 10 n = c :: ds ∧ c.isDigit = true := by
  obtain ⟨c, ds, hds⟩ := List.exists_cons_of_ne_nil (Nat.toDigits_ne_nil (n := n) (b := 10))
  exact ⟨c, ds, hds, (digits_toDigits n []).digit c (hds ▸ List.mem_cons_self)⟩

theorem read_sign (negative : Bool) (n : Nat) (k : List Char) :
    Number.read ((if negative then ['-'] else []) ++ Nat.toDigits 10 n ++ k) =
      Number.readUnsigned negative (Nat.toDigits 10 n ++ k) := by
  cases negative with
  | true => rfl
  | false =>
    obtain ⟨c, ds, hds, hc⟩ := toDigits_cons n
    refine Number.read.eq_2 _ fun l hl => ?_
    rw [hds] at hl
    rw [(List.cons.inj hl).1] at hc
    exact absurd hc (by decide)

/-- A number is read up to its end, unless it is too large. -/
theorem Numeral.Written.read {n : Numeral} (h : n.Written l r) (hr : Ends r) :
    Number.read l =
      (Number.ofDigits? n.negative (Nat.toDigits 10 n.whole) n.fraction n.exponent).elim
        (.error .malformed) fun x => .ok (x, r) := by
  cases h with
  | @parts k m _ fraction exponent =>
    obtain ⟨hm, hpoint⟩ := exponent.apart hr
    have hwhole := readWhole_toDigits n.whole (fraction.noDigit hm)
    rw [read_sign]
    simp only [Number.readUnsigned, hwhole, fraction.read hm hpoint, exponent.read hr, bind,
      Except.bind]
    cases Number.ofDigits? n.negative (Nat.toDigits 10 n.whole) n.fraction n.exponent <;> rfl

end FiveStage.Json
