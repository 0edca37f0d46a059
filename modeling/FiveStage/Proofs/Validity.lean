import Mathlib.Algebra.Group.Nat.Defs
import FiveStage.Config.Basic

/-!
# Valid configurations

The rules of a configuration, over numbers that do not wrap, and the order in
which they are looked at. A configuration that breaks none of them is valid,
and any other is refused for the first one that it breaks. One memory is
refused although it breaks no rule: that of every address there is, since its
size is no number of 32 bits.
-/

set_option autoImplicit false

namespace FiveStage

namespace Config

def ramBound (c : Config) : Nat :=
  c.ramBase.toNat + c.ramSize.toNat

def Whole (c : Config) : Prop :=
  c.ramBase.toNat = 0 ∧ c.ramSize.toNat = 2 ^ 32

instance (c : Config) : Decidable c.Whole :=
  inferInstanceAs (Decidable (_ ∧ _))

structure Sound (c : Config) : Prop where
  memory : 1 ≤ c.ramSize.toNat
  addresses : c.ramBound ≤ 2 ^ 32
  aligned : 4 ∣ c.startPc.toNat
  start : c.ramBase.toNat ≤ c.startPc.toNat ∧ c.startPc.toNat < c.ramBound
  stack : ∀ sp, c.initialSp = some sp → c.ramBase.toNat ≤ sp.toNat ∧ sp.toNat ≤ c.ramBound
  cycles : 1 ≤ c.maxCycles.toNat

def Shows (c : Config) : Violation → Prop
  | .emptyRam | .noCycles => True
  | .ramTooLarge size base => size = c.ramSize ∧ base = c.ramBase
  | .misalignedStart pc | .startOutside pc => pc = c.startPc
  | .stackOutside sp => c.initialSp = some sp

def Keeps (c : Config) : Violation → Prop
  | .emptyRam => 1 ≤ c.ramSize.toNat
  | .ramTooLarge size base => base.toNat + size.toNat ≤ 2 ^ 32
  | .misalignedStart pc => 4 ∣ pc.toNat
  | .startOutside pc => c.ramBase.toNat ≤ pc.toNat ∧ pc.toNat < c.ramBound
  | .stackOutside sp => c.ramBase.toNat ≤ sp.toNat ∧ sp.toNat ≤ c.ramBound
  | .noCycles => 1 ≤ c.maxCycles.toNat

def Breaks (c : Config) (v : Violation) : Prop :=
  c.Shows v ∧ ¬c.Keeps v

def Violation.rank : Violation → Nat
  | emptyRam => 0
  | ramTooLarge .. => 1
  | misalignedStart _ => 2
  | startOutside _ => 3
  | stackOutside _ => 4
  | noCycles => 5

theorem Violation.rank_lt (v : Violation) : v.rank < 6 := by
  cases v <;> simp [rank]

def FirstBroken (c : Config) (v : Violation) : Prop :=
  c.Breaks v ∧ ∀ w : Violation, w.rank < v.rank → ¬c.Breaks w

section Rules
variable {c : Config} {v w : Violation}

theorem sound_iff : c.Sound ↔ ∀ v, c.Shows v → c.Keeps v := by
  constructor
  · intro h v hv
    cases v with
    | emptyRam => exact h.memory
    | ramTooLarge =>
      obtain ⟨rfl, rfl⟩ := hv
      exact h.addresses
    | misalignedStart =>
      obtain rfl := hv
      exact h.aligned
    | startOutside =>
      obtain rfl := hv
      exact h.start
    | stackOutside sp => exact h.stack sp hv
    | noCycles => exact h.cycles
  · intro h
    exact
      { memory := h .emptyRam trivial
        addresses := h (.ramTooLarge _ _) ⟨rfl, rfl⟩
        aligned := h (.misalignedStart _) rfl
        start := h (.startOutside _) rfl
        stack := fun sp hsp => h (.stackOutside sp) hsp
        cycles := h .noCycles trivial }

theorem Shows.unique (hv : c.Shows v) (hw : c.Shows w) (h : v.rank = w.rank) : v = w := by
  cases v <;> cases w <;> simp_all [Shows, Violation.rank]

theorem FirstBroken.unique (hv : c.FirstBroken v) (hw : c.FirstBroken w) : v = w := by
  rcases Nat.lt_trichotomy v.rank w.rank with h | h | h
  · exact absurd hv.1 (hw.2 v h)
  · exact hv.1.1.unique hw.1.1 h
  · exact absurd hw.1 (hv.2 w h)

theorem FirstBroken.not_sound (h : c.FirstBroken v) : ¬c.Sound :=
  fun hs => h.1.2 (sound_iff.mp hs v h.1.1)

end Rules

section Checks
variable {c : Config}

theorem ramEnd?_eq_some_iff {a : Word} : c.ramEnd? = some a ↔
    1 ≤ c.ramSize.toNat ∧ c.ramSize.toNat < 2 ^ 32 ∧ a.toNat + 1 = c.ramBound := by
  have ha := a.isLt
  unfold ramEnd? ramBound
  rw [show Nat.pow 2 32 = 2 ^ 32 from rfl]
  split
  · simp only [reduceCtorEq, false_iff]
    omega
  · simp only [Option.ite_none_right_eq_some, Option.some.injEq, ← BitVec.toNat_inj,
      BitVec.toNat_ofNat]
    omega

theorem ramEnd?_isSome_iff : c.ramEnd?.isSome = true ↔
    1 ≤ c.ramSize.toNat ∧ c.ramSize.toNat < 2 ^ 32 ∧ c.ramBound ≤ 2 ^ 32 := by
  rw [Option.isSome_iff_exists]
  constructor
  · rintro ⟨a, ha⟩
    obtain ⟨hsize, hword, hlast⟩ := ramEnd?_eq_some_iff.mp ha
    have hlt := a.isLt
    exact ⟨hsize, hword, by omega⟩
  · rintro ⟨hsize, hword, hbound⟩
    refine ⟨.ofNat 32 (c.ramBound - 1), ramEnd?_eq_some_iff.mpr ⟨hsize, hword, ?_⟩⟩
    have hpos : 1 ≤ c.ramBound := Nat.le_add_left_of_le hsize
    rw [BitVec.toNat_ofNat, Nat.mod_eq_of_lt (by omega)]
    omega

/-- The size that is no number of 32 bits leaves room for no other memory. -/
theorem ramEnd?_isSome_of_not_whole (hw : ¬c.Whole) (hsize : 1 ≤ c.ramSize.toNat) :
    c.ramEnd?.isSome = true ↔ c.ramBound ≤ 2 ^ 32 := by
  rw [ramEnd?_isSome_iff]
  unfold Whole at hw
  unfold ramBound
  omega

theorem contains_iff (h : c.ramEnd?.isSome = true) (a : Word) :
    c.contains a = true ↔ c.ramBase.toNat ≤ a.toNat ∧ a.toNat < c.ramBound := by
  obtain ⟨last, hlast⟩ := Option.isSome_iff_exists.mp h
  obtain ⟨-, -, hbound⟩ := ramEnd?_eq_some_iff.mp hlast
  simp only [contains, hlast, Bool.and_eq_true, decide_eq_true_eq]
  omega

theorem ramTop_toNat (h : c.ramBound ≤ 2 ^ 32) : c.ramTop.toNat = c.ramBound := by
  have hbase := c.ramBase.isLt
  unfold ramBound at h ⊢
  rw [ramTop, BitVec.toNat_add, BitVec.toNat_setWidth]
  omega

theorem stackViolation?_eq_some_iff (h : c.ramBound ≤ 2 ^ 32) {v : Violation} :
    c.stackViolation? = some v ↔ v.rank = 4 ∧ c.Breaks v := by
  unfold stackViolation?
  rw [ramTop_toNat h]
  constructor
  · intro hv
    cases hsp : c.initialSp with
    | none => simp [hsp] at hv
    | some sp =>
      simp only [hsp, Option.ite_none_right_eq_some, Option.some.injEq] at hv
      obtain ⟨hout, rfl⟩ := hv
      refine ⟨rfl, hsp, fun hin => ?_⟩
      obtain ⟨hlow, hhigh⟩ := hin
      omega
  · rintro ⟨hrank, hshows, hout⟩
    cases v with
    | stackOutside sp =>
      have hsp : c.initialSp = some sp := hshows
      simp only [Keeps] at hout
      rw [hsp]
      exact if_pos (by omega)
    | _ => cases hrank

theorem eq_zero_iff {n : Nat} {x : BitVec n} : x = 0 ↔ ¬1 ≤ x.toNat := by
  rw [← BitVec.toNat_inj, BitVec.ofNat_eq_ofNat, BitVec.toNat_ofNat, Nat.zero_mod]
  omega

end Checks

section Order
variable {c : Config} {n : Nat} {v : Violation} {rest : Except Violation Unit}

def Decided (c : Config) (answer : Except Violation Unit) : Prop :=
  answer = .ok () ∧ c.Sound ∨ ∃ v, answer = .error v ∧ c.FirstBroken v

def KeepsBefore (c : Config) (n : Nat) : Prop :=
  ∀ v : Violation, v.rank < n → c.Shows v → c.Keeps v

theorem KeepsBefore.succ (h : c.KeepsBefore n)
    (hn : ∀ v : Violation, v.rank = n → c.Shows v → c.Keeps v) : c.KeepsBefore (n + 1) := by
  intro v hv
  rcases Nat.lt_succ_iff_lt_or_eq.mp hv with hlt | heq
  · exact h v hlt
  · exact hn v heq

theorem KeepsBefore.firstBroken (h : c.KeepsBefore v.rank) (hv : c.Breaks v) : c.FirstBroken v :=
  ⟨hv, fun w hlt hw => hw.2 (h w hlt hw.1)⟩

/-- A check settles its rule and leaves those behind it to the rest. -/
theorem Decided.check {bad : Prop} [Decidable bad] (keeps : c.KeepsBefore v.rank)
    (shows : c.Shows v) (hbad : bad ↔ ¬c.Keeps v)
    (hrest : c.KeepsBefore (v.rank + 1) → c.Decided rest) :
    c.Decided (if bad then .error v else rest) := by
  by_cases h : bad
  · rw [if_pos h]
    exact .inr ⟨v, rfl, keeps.firstBroken ⟨shows, hbad.mp h⟩⟩
  · rw [if_neg h]
    apply hrest
    apply keeps.succ
    intro w hw hshows
    obtain rfl := hshows.unique shows hw
    exact Classical.not_not.mp fun hn => h (hbad.mpr hn)

end Order

theorem validate_decided {c : Config} (hw : ¬c.Whole) : c.Decided c.validate := by
  have keeps0 : c.KeepsBefore 0 := fun v hv => absurd hv (Nat.not_lt_zero _)
  refine Decided.check (v := .emptyRam) keeps0 trivial eq_zero_iff fun keeps1 => ?_
  have hend : c.ramEnd?.isSome = true ↔ c.ramBound ≤ 2 ^ 32 :=
    ramEnd?_isSome_of_not_whole hw (keeps1 .emptyRam Nat.zero_lt_one trivial)
  have htooLarge : c.ramEnd?.isNone = true ↔ ¬c.Keeps (.ramTooLarge c.ramSize c.ramBase) := by
    rw [← Option.not_isSome, Bool.not_eq_true', ← Bool.not_eq_true, hend]
    rfl
  refine Decided.check keeps1 ⟨rfl, rfl⟩ htooLarge fun keeps2 => ?_
  have hbound : c.ramBound ≤ 2 ^ 32 := keeps2 (.ramTooLarge _ _) Nat.one_lt_two ⟨rfl, rfl⟩
  refine Decided.check keeps2 rfl (not_congr Nat.dvd_iff_mod_eq_zero.symm) fun keeps3 => ?_
  have hstart : (!c.contains c.startPc) = true ↔ ¬c.Keeps (.startOutside c.startPc) := by
    rw [Bool.not_eq_true', ← Bool.not_eq_true, contains_iff (hend.mpr hbound)]
    rfl
  refine Decided.check keeps3 rfl hstart fun keeps4 => ?_
  -- no stack pointer need be given, so that this rule has nothing to show at times
  cases hstack : c.stackViolation? with
  | some v =>
    obtain ⟨hrank, hbroken⟩ := (stackViolation?_eq_some_iff hbound).mp hstack
    exact .inr ⟨v, rfl, KeepsBefore.firstBroken (hrank ▸ keeps4) hbroken⟩
  | none =>
    have keeps5 : c.KeepsBefore 5 := keeps4.succ fun v hrank hshows => by
      refine Classical.not_not.mp fun hn => ?_
      cases hstack.symm.trans ((stackViolation?_eq_some_iff hbound).mpr ⟨hrank, hshows, hn⟩)
    refine Decided.check (v := .noCycles) keeps5 trivial eq_zero_iff fun keeps6 => ?_
    refine .inl ⟨rfl, sound_iff.mpr fun v hshows => keeps6 v ?_ hshows⟩
    exact v.rank_lt

theorem validate_whole {c : Config} (hw : c.Whole) :
    c.validate = .error (.ramTooLarge c.ramSize c.ramBase) := by
  obtain ⟨-, hsize⟩ := hw
  have hmemory : c.ramSize ≠ 0 := fun h => eq_zero_iff.mp h (by omega)
  have hend : c.ramEnd?.isNone = true := by
    rw [← Option.not_isSome, Bool.not_eq_true', ← Bool.not_eq_true, ramEnd?_isSome_iff]
    omega
  rw [validate, if_neg hmemory, if_pos hend]

theorem validate_ok_iff {c : Config} : c.validate = .ok () ↔ c.Sound ∧ ¬c.Whole := by
  by_cases hw : c.Whole
  · rw [validate_whole hw]
    exact ⟨fun h => (by cases h), fun h => absurd hw h.2⟩
  · rcases validate_decided hw with ⟨hok, hsound⟩ | ⟨v, hv, hfirst⟩
    · exact ⟨fun _ => ⟨hsound, hw⟩, fun _ => hok⟩
    · rw [hv]
      exact ⟨fun h => (by cases h), fun h => absurd h.1 hfirst.not_sound⟩

theorem validate_error_iff {c : Config} (hw : ¬c.Whole) {v : Violation} :
    c.validate = .error v ↔ c.FirstBroken v := by
  rcases validate_decided hw with ⟨hok, hsound⟩ | ⟨w, hv, hfirst⟩
  · rw [hok]
    exact ⟨fun h => (by cases h), fun h => absurd hsound h.not_sound⟩
  · rw [hv]
    exact ⟨fun h => Except.error.inj h ▸ hfirst, fun h => congrArg _ (hfirst.unique h)⟩

/-- A configuration is refused for one reason, which is the first, and valid if
there is none. -/
theorem validate_decides (c : Config) :
    (c.validate = .ok () ↔ c.Sound ∧ ¬c.Whole) ∧
      ∀ v, c.validate = .error v ↔
        if c.Whole then v = .ramTooLarge c.ramSize c.ramBase else c.FirstBroken v := by
  refine ⟨validate_ok_iff, fun v => ?_⟩
  by_cases hw : c.Whole
  · rw [if_pos hw, validate_whole hw]
    exact ⟨fun h => (Except.error.inj h).symm, fun h => congrArg _ h.symm⟩
  · rw [if_neg hw]
    exact validate_error_iff hw

def everywhere : Config :=
  { startPc := 0
    ramBase := 0
    ramSize := 0x100000000
    maxCycles := 1 }

/-- Everything is in its place, and yet the memory is said to be too large. -/
theorem validate_refuses_sound : everywhere.Sound ∧
    everywhere.validate = .error (.ramTooLarge 0x100000000 0) ∧
      ¬∀ c : Config, c.validate = .ok () ↔ c.Sound := by
  have hsound : everywhere.Sound :=
    { memory := by decide
      addresses := by decide
      aligned := by decide
      start := by decide
      stack := fun _ h => by cases h
      cycles := by decide }
  have hrefused : everywhere.validate = .error (.ramTooLarge 0x100000000 0) := rfl
  refine ⟨hsound, hrefused, fun h => ?_⟩
  cases hrefused.symm.trans ((h everywhere).mpr hsound)

end Config

end FiveStage
