import FiveStage.Proofs.Passage

/-!
# The course of a program

The states that a program goes through when the instructions it executes are
given as slots, whatever memory they were fetched from. The machine without a
pipeline follows the course of the slots at its own pc.
-/

set_option autoImplicit false

namespace FiveStage

namespace Sequential.State

/-- The state before instruction `k`, if the program gets that far. -/
def course (slots : Nat → Slot) (s : State) : Nat → Option State
  | 0 => some s
  | k + 1 =>
    match course slots s k with
    | none => none
    | some s' =>
      match s'.settle (slots k) with
      | .next s'' => some s''
      | _ => none

variable {slots : Nat → Slot} {s₀ : State}

theorem course_succ {k : Nat} {s s' : State} (h : course slots s₀ k = some s)
    (hn : s.settle (slots k) = .next s') : course slots s₀ (k + 1) = some s' := by
  simp [course, h, hn]

theorem course_pred {k : Nat} {s' : State} (h : course slots s₀ (k + 1) = some s') :
    ∃ s, course slots s₀ k = some s ∧ s.settle (slots k) = .next s' := by
  rw [course] at h
  cases hk : course slots s₀ k with
  | none => simp [hk] at h
  | some s =>
    simp only [hk] at h
    cases hs : s.settle (slots k) with
    | next s'' =>
      simp only [hs, Option.some.injEq] at h
      exact ⟨s, rfl, h ▸ hs⟩
    | halted code => simp [hs] at h
    | trapped pc t => simp [hs] at h

theorem course_le {j k : Nat} {s : State} (h : course slots s₀ k = some s) (hjk : j ≤ k) :
    ∃ s', course slots s₀ j = some s' := by
  induction k generalizing s with
  | zero => exact ⟨s, by rwa [Nat.le_zero.mp hjk]⟩
  | succ k ih =>
    rcases Nat.lt_or_eq_of_le hjk with hlt | rfl
    · obtain ⟨s', hs', -⟩ := course_pred h
      exact ih hs' (Nat.lt_succ_iff.mp hlt)
    · exact ⟨s, h⟩

def courseIssue (slots : Nat → Slot) (s : State) (k : Nat) : Issue :=
  match course slots s k with
  | none => {}
  | some s' => s'.issue (slots k)

theorem course_issue {k : Nat} {s : State} (h : course slots s₀ k = some s) :
    courseIssue slots s₀ k = s.issue (slots k) := by
  simp [courseIssue, h]

def fetches (s : State) (k : Nat) : Slot :=
  match s.after? k with
  | none => {}
  | some s' => Slot.fetch s'.ram s'.pc

theorem after_succ (s : State) (k : Nat) :
    s.after? (k + 1) = (s.after? k).bind fun s' =>
      match s'.step with
      | .next s'' => some s''
      | _ => none := by
  rw [after?_add]
  rfl

theorem after_pred {s₀ s' : State} {k : Nat} (h : s₀.after? (k + 1) = some s') :
    ∃ s, s₀.after? k = some s ∧ s.step = .next s' := by
  rw [after_succ] at h
  obtain ⟨s, hs, h⟩ := Option.bind_eq_some_iff.mp h
  refine ⟨s, hs, ?_⟩
  cases hx : s.step with
  | next s'' =>
    simp only [hx, Option.some.injEq] at h
    rw [h]
  | halted code => simp [hx] at h
  | trapped pc cause => simp [hx] at h

theorem fetches_eq {s₀ s : State} {k : Nat} (h : s₀.after? k = some s) :
    s₀.fetches k = Slot.fetch s.ram s.pc := by
  simp [fetches, h]

theorem course_fetches (s : State) (k : Nat) : course s.fetches s k = s.after? k := by
  induction k with
  | zero => rfl
  | succ k ih =>
    rw [course, ih, after_succ]
    cases hk : s.after? k with
    | none => rfl
    | some s' =>
      simp only [fetches_eq hk, Option.bind_some]
      rw [← step_settle]

theorem settle_fetches {s₀ s : State} {k : Nat} (h : course s₀.fetches s₀ k = some s) :
    s.settle (s₀.fetches k) = s.step := by
  rw [course_fetches] at h
  rw [fetches_eq h, step_settle]

end Sequential.State

end FiveStage
