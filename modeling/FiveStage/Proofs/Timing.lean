import FiveStage.Proofs.Schedule

/-!
# The pipeline keeps to the schedule

Beside the instructions that the latches hold, the number of cycles gone by is
tied to the schedule: an instruction that has passed a stage did so in the
cycle that the schedule names. The hazard unit stalls exactly as long as the
recurrence asks it to.
-/

set_option autoImplicit false

namespace FiveStage

open FiveStage.Sequential FiveStage.Sequential.State

namespace Sequential.State

def courseRedirect (slots : Nat → Slot) (s : State) (k : Nat) : Nat :=
  (courseIssue slots s k).jump.toNat

def courseLag (slots : Nat → Slot) (s : State) (j k : Nat) : Nat :=
  (courseIssue slots s j).snapshot.lag (courseIssue slots s k).snapshot

theorem courseLag_le (slots : Nat → Slot) (s : State) (j k : Nat) : courseLag slots s j k ≤ 3 :=
  Snapshot.lag_le_three _ _

def courseLeaves (slots : Nat → Slot) (s : State) : Nat → Nat :=
  leaves (courseRedirect slots s) (courseLag slots s)

def courseEnters (slots : Nat → Slot) (s : State) : Nat → Nat :=
  enters (courseRedirect slots s) (courseLag slots s)

theorem courseEnters_succ (slots : Nat → Slot) (s : State) (k : Nat) :
    courseEnters slots s (k + 1) = courseLeaves slots s k + 1 + courseRedirect slots s k := rfl

theorem courseEnters_le (slots : Nat → Slot) (s : State) (k : Nat) :
    courseEnters slots s k ≤ courseLeaves slots s k :=
  enters_le_leaves k

theorem courseLeaves_lag (slots : Nat → Slot) (s : State) {j k : Nat} (h : j < k) :
    courseLeaves slots s j + courseLag slots s j k ≤ courseLeaves slots s k :=
  lag_le_leaves h

end Sequential.State

structure OnTime (slots : Nat → Slot) (s₀ : State) (t n : Nat) (m : Machine) : Prop where
  retired : ∀ k < n, courseLeaves slots s₀ k + 3 ≤ t
  memWb : m.core.memWb.valid = true → ∀ s, course slots s₀ n = some s →
    t = courseLeaves slots s₀ n + 2
  exMem : m.core.exMem.valid = true → ∀ s, course slots s₀ (m.core.pastMemory n) = some s →
    t = courseLeaves slots s₀ (m.core.pastMemory n) + 1
  idEx : m.core.idEx.valid = true → ∀ s, course slots s₀ (m.core.pastExecute n) = some s →
    t = courseLeaves slots s₀ (m.core.pastExecute n)
  decoding : m.core.ifId.valid = true → ∀ s, course slots s₀ (m.core.pastDecode n) = some s →
    courseEnters slots s₀ (m.core.pastDecode n) ≤ t + 1 ∧
      t + 1 ≤ courseLeaves slots s₀ (m.core.pastDecode n)
  fetching : m.core.ifId.valid = false → ∀ s, course slots s₀ (m.core.pastDecode n) = some s →
    courseEnters slots s₀ (m.core.pastDecode n) = t + 2

variable {slots : Nat → Slot} {s₀ s : State} {n t : Nat} {m : Machine}

/-- An instruction that has left decode is retired or in one of three latches. -/
theorem Core.past_decode_cases {c : Core} {j : Nat} (h : j < c.pastDecode n) :
    j < n ∨ (j = n ∧ c.memWb.valid = true) ∨ (j = c.pastMemory n ∧ c.exMem.valid = true) ∨
      (j = c.pastExecute n ∧ c.idEx.valid = true) := by
  revert h
  unfold pastDecode pastExecute pastMemory
  cases c.memWb.valid <;> cases c.exMem.valid <;> cases c.idEx.valid <;> simp <;> omega

namespace InFlight

theorem decode_snapshot (h : InFlight slots s₀ n m) (hv : m.core.ifId.valid = true)
    (hs : course slots s₀ (m.core.pastDecode n) = some s) :
    (courseIssue slots s₀ (m.core.pastDecode n)).snapshot = m.core.decoded.snapshot := by
  rw [course_issue hs, (h.decoded_eq hv hs).1]

theorem execute_lag (h : InFlight slots s₀ n m) (hv : m.core.idEx.valid = true)
    (hs : course slots s₀ (m.core.pastExecute n) = some s) (c : Snapshot) :
    (courseIssue slots s₀ (m.core.pastExecute n)).snapshot.lag c =
      (Snapshot.ofIdEx m.core.idEx).lag c := by
  have he := congrArg Snapshot.ofExMem (h.idEx hv s hs)
  rw [Core.executed, executed, Snapshot.ofExMem_execute, Snapshot.ofExMem_execute, issue,
    Snapshot.ofIdEx_issue] at he
  rw [course_issue hs]
  exact (congrArg (Snapshot.lag · c) he).symm

theorem memory_lag (h : InFlight slots s₀ n m) (hv : m.core.exMem.valid = true)
    (hs : course slots s₀ (m.core.pastMemory n) = some s) (c : Snapshot) :
    (courseIssue slots s₀ (m.core.pastMemory n)).snapshot.lag c =
      (Snapshot.ofExMem m.core.exMem).lag c := by
  have he := congrArg Snapshot.ofExMem (h.exMem hv s hs)
  rw [executed, Snapshot.ofExMem_execute, issue, Snapshot.ofIdEx_issue] at he
  rw [course_issue hs]
  exact (congrArg (Snapshot.lag · c) he).symm

end InFlight

namespace OnTime

/-- An instruction is held back exactly as long as the schedule says. -/
theorem stall_iff (ot : OnTime slots s₀ t n m) (h : InFlight slots s₀ n m)
    (hv : m.core.ifId.valid = true) (hs : course slots s₀ (m.core.pastDecode n) = some s) :
    m.core.decided = .stall ↔ t + 1 < courseLeaves slots s₀ (m.core.pastDecode n) := by
  obtain ⟨s₁, hs₁⟩ := course_le hs (Nat.le_add_right _ _)
  obtain ⟨s₂, hs₂⟩ := course_le hs₁ (Nat.le_add_right _ _)
  obtain ⟨s₃, hs₃⟩ := course_le hs₂ (Nat.le_add_right _ _)
  have hsnap := h.decode_snapshot hv hs
  rw [Core.decided_lag]
  constructor
  · rintro (hlag | hlag)
    · have hx : m.core.idEx.valid = true := by
        cases hx : m.core.idEx.valid with
        | true => rfl
        | false => simp [Snapshot.ofIdEx, Slot.live, hx, Snapshot.lag_bubble] at hlag
      have hlt : m.core.pastExecute n < m.core.pastDecode n := by simp [Core.pastDecode, hx]
      have hle := courseLeaves_lag slots s₀ hlt
      have ht := ot.idEx hx s₁ hs₁
      rw [courseLag, h.execute_lag hx hs₁, hsnap] at hle
      omega
    · have hx : m.core.exMem.valid = true := by
        cases hx : m.core.exMem.valid with
        | true => rfl
        | false => simp [Snapshot.ofExMem, Slot.live, hx, Snapshot.lag_bubble] at hlag
      have hlt : m.core.pastMemory n < m.core.pastDecode n := by
        simp only [Core.pastDecode, Core.pastExecute, hx, Bool.toNat_true]
        omega
      have hle := courseLeaves_lag slots s₀ hlt
      have ht := ot.exMem hx s₂ hs₂
      rw [courseLag, h.memory_lag hx hs₂, hsnap] at hle
      omega
  -- all that has left decode is retired or in one of the latches behind it, and
  -- none of it asks for more cycles than have gone by
  · contrapose!
    rintro ⟨hex, hmem⟩
    refine leaves_le (ot.decoding hv s hs).1 fun j hj => ?_
    rcases Core.past_decode_cases hj with hj | ⟨rfl, hx⟩ | ⟨rfl, hx⟩ | ⟨rfl, hx⟩
    · have ht := ot.retired j hj
      have := courseLag_le slots s₀ j (m.core.pastDecode n)
      unfold courseLeaves at ht
      omega
    · have ht := ot.memWb hx s₃ hs₃
      have := courseLag_le slots s₀ j (m.core.pastDecode j)
      unfold courseLeaves at ht
      omega
    · have ht := ot.exMem hx s₂ hs₂
      rw [courseLag, h.memory_lag hx hs₂, hsnap]
      unfold courseLeaves at ht
      omega
    · have ht := ot.idEx hx s₁ hs₁
      rw [courseLag, h.execute_lag hx hs₁, hsnap]
      unfold courseLeaves at ht
      omega

theorem leaves_now (ot : OnTime slots s₀ t n m) (h : InFlight slots s₀ n m)
    (hv : m.core.ifId.valid = true) (hs : course slots s₀ (m.core.pastDecode n) = some s)
    (hgo : m.core.decided ≠ .stall) : t + 1 = courseLeaves slots s₀ (m.core.pastDecode n) :=
  Nat.le_antisymm (ot.decoding hv s hs).2 (Nat.le_of_not_lt fun hlt =>
    hgo ((ot.stall_iff h hv hs).mpr hlt))

/-- What leaves decode is followed at once, or one cycle later if it redirects
fetch. -/
theorem enters_behind (ot : OnTime slots s₀ t n m) (h : InFlight slots s₀ n m)
    (hv : m.core.ifId.valid = true) (hs : course slots s₀ (m.core.pastDecode n + 1) = some s)
    (hgo : m.core.decided ≠ .stall) :
    courseEnters slots s₀ (m.core.pastDecode n + 1) = t + 2 + m.core.decoded.jump.toNat := by
  obtain ⟨s', hs', -⟩ := course_pred hs
  have hr : courseRedirect slots s₀ (m.core.pastDecode n) = m.core.decoded.jump.toNat := by
    rw [courseRedirect, course_issue hs', ← ((h.decoded_eq hv hs').2 hgo).1]
  rw [courseEnters_succ, ← ot.leaves_now h hv hs' hgo, hr]

theorem advance (ot : OnTime slots s₀ t n m) (h : InFlight slots s₀ n m)
    (hs : course slots s₀ (m.core.pastMemory n) = some s) :
    OnTime slots s₀ (t + 1) (m.core.pastMemory n)
      ⟨m.core.next m.ram, (m.core.exMem.access m.ram).1⟩ where
  retired := by
    intro k hk
    rcases Nat.lt_or_ge k n with hlt | hge
    · exact Nat.le_succ_of_le (ot.retired k hlt)
    · obtain ⟨s', hs'⟩ := course_le hs (Nat.le_add_right _ _)
      unfold Core.pastMemory at hk
      cases hv : m.core.memWb.valid with
      | false =>
        rw [hv, Bool.toNat_false] at hk
        omega
      | true =>
        rw [hv, Bool.toNat_true] at hk
        obtain rfl : k = n := by omega
        have := ot.memWb hv s' hs'
        omega
  memWb := by
    intro hv s' hs'
    exact congrArg Nat.succ (ot.exMem ((ExMem.access_valid _ _).symm.trans hv) s' hs')
  exMem := by
    intro hv s' hs'
    simp only [Core.next_pastMemory] at hs' ⊢
    exact congrArg Nat.succ (ot.idEx ((IdEx.execute_valid _ _ _).symm.trans hv) s' hs')
  idEx := by
    intro hv s' hs'
    simp only [Core.next_pastExecute] at hs' ⊢
    obtain ⟨hgo, hvalid, -⟩ := Core.next_idEx_valid hv
    exact ot.leaves_now h hvalid hs' hgo
  decoding := by
    intro hv s' hs'
    simp only [Core.next_pastDecode] at hs' ⊢
    cases hd : m.core.decided with
    | stall =>
      rw [if_pos hd] at hs'
      have hvalid : m.core.ifId.valid = true := by simpa [Core.next, hd] using hv
      have hlt := (ot.stall_iff h hvalid hs').mp hd
      exact ⟨Nat.le_succ_of_le (ot.decoding hvalid s' hs').1, hlt⟩
    | flush => simp [Core.next, hd] at hv
    | noAction =>
      have hgo : m.core.decided ≠ .stall := by simp [hd]
      rw [if_neg hgo] at hs'
      simp only [reduceCtorEq, if_false]
      have hin : courseEnters slots s₀ (m.core.pastDecode n + m.core.ifId.valid.toNat) = t + 2 := by
        cases hvalid : m.core.ifId.valid with
        | false =>
          rw [hvalid, Bool.toNat_false, Nat.add_zero] at hs'
          exact ot.fetching hvalid s' hs'
        | true =>
          rw [hvalid, Bool.toNat_true] at hs'
          rw [Bool.toNat_true, ot.enters_behind h hvalid hs' hgo, Core.going_straight hd]
          rfl
      have hle := courseEnters_le slots s₀ (m.core.pastDecode n + m.core.ifId.valid.toNat)
      exact ⟨hin.le, hin ▸ hle⟩
  fetching := by
    intro hv s' hs'
    simp only [Core.next_pastDecode] at hs' ⊢
    cases hd : m.core.decided with
    | stall =>
      have hvalid : m.core.ifId.valid = false := by simpa [Core.next, hd] using hv
      exact absurd (hvalid.symm.trans (Core.decided_valid (by simp [hd]))) Bool.false_ne_true
    | noAction => simp [Core.next, hd, Slot.fetch_valid] at hv
    | flush =>
      have hgo : m.core.decided ≠ .stall := by simp [hd]
      have hvalid : m.core.ifId.valid = true := Core.decided_valid (by simp [hd])
      rw [if_neg hgo, hvalid, Bool.toNat_true] at hs'
      simp only [reduceCtorEq, if_false, hvalid, Bool.toNat_true]
      rw [ot.enters_behind h hvalid hs' hgo, Core.going_elsewhere hd]
      rfl

end OnTime

end FiveStage
