/-!
# Calls and their answers

A system is asked one thing after the other. What it answers to a sequence of
calls is known from single calls: two systems whose states are related by every
call answer alike, and a state that no call leaves answers each by itself.
-/

set_option autoImplicit false

namespace FiveStage

variable {σ τ κ ρ : Type} {f : σ → κ → σ × ρ} {g : τ → κ → τ × ρ}

def calls (step : σ → κ → σ × ρ) : σ → List κ → σ × List ρ
  | s, [] => (s, [])
  | s, c :: cs =>
    let rest := calls step (step s c).1 cs
    (rest.1, (step s c).2 :: rest.2)

theorem calls_related (related : σ → τ → Prop)
    (step : ∀ s t c, related s t → related (f s c).1 (g t c).1 ∧ (f s c).2 = (g t c).2)
    {s : σ} {t : τ} (h : related s t) (cs : List κ) :
    related (calls f s cs).1 (calls g t cs).1 ∧ (calls f s cs).2 = (calls g t cs).2 := by
  induction cs generalizing s t with
  | nil => exact ⟨h, rfl⟩
  | cons c cs ih =>
    obtain ⟨hnext, hanswer⟩ := step s t c h
    obtain ⟨hlast, hrest⟩ := ih hnext
    refine ⟨hlast, ?_⟩
    rw [calls, calls, hanswer, hrest]

theorem calls_fixed {s : σ} {answer : κ → ρ} (step : ∀ c, f s c = (s, answer c)) (cs : List κ) :
    calls f s cs = (s, cs.map answer) := by
  induction cs with
  | nil => rfl
  | cons c cs ih => rw [calls, step, ih, List.map_cons]

end FiveStage
