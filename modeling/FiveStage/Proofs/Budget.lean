import FiveStage.Machine.Run
import FiveStage.Proofs.Coherence

/-!
# Runs on a budget

A run is nothing but cycles: it ends with the first cycle that halts or fails,
or after as many cycles as its limit leaves. How the cycles are divided among
runs and single ticks makes no difference, and neither does a higher limit once
a run has ended by itself.
-/

set_option autoImplicit false

namespace FiveStage

structure Core.Named (c : Core) : Prop where
  idEx : c.idEx.rs1 < 32 ∧ c.idEx.rs2 < 32 ∧ c.idEx.rd < 32
  exMem : c.exMem.rd < 32
  memWb : c.memWb.rd < 32

instance (c : Core) : Decidable c.Named :=
  decidable_of_iff ((c.idEx.rs1 < 32 ∧ c.idEx.rs2 < 32 ∧ c.idEx.rd < 32) ∧ c.exMem.rd < 32 ∧
    c.memWb.rd < 32) ⟨fun h => ⟨h.1, h.2.1, h.2.2⟩, fun h => ⟨h.idEx, h.exMem, h.memWb⟩⟩

namespace Machine

def ending? (m : Machine) : Option (Except Stop Word) :=
  match m.tick.outcome with
  | .error e => some (.error e)
  | .ok () => m.tick.machine.core.exitCode.map .ok

/-- Whether the `n`-th cycle from here is the first to halt or to fail, and `r`
is what it leads to. -/
def EndsIn (m : Machine) (n : Nat) (r : Except Stop Word) : Prop :=
  ∃ k, n = k + 1 ∧ (∀ j < k, (m.ticks j).ending? = none) ∧ (m.ticks k).ending? = some r

def left (m : Machine) (limit : Count) : Nat :=
  limit.toNat - m.core.stats.cycles.toNat

theorem runOn_halted {m : Machine} {code : Word} (h : m.core.exitCode = some code)
    (limit : Count) (events : Array Event) :
    (runOn limit m events).outcome = .ok code ∧ (runOn limit m events).machine = m := by
  rw [runOn]
  split
  · rename_i code' hc
    obtain rfl : code = code' := Option.some.inj (h.symm.trans hc)
    exact ⟨rfl, rfl⟩
  · rename_i hrun
    cases h.symm.trans hrun

section Round
variable {m : Machine} {limit : Count} (events : Array Event)

theorem runOn_exhausted (hrun : m.core.exitCode = none) (h : limit ≤ m.core.stats.cycles) :
    (runOn limit m events).outcome = .error (.cycleLimit limit) ∧
      (runOn limit m events).machine = m := by
  rw [runOn]
  split
  · rename_i code hc
    cases hrun.symm.trans hc
  · rw [dif_pos h]
    exact ⟨rfl, rfl⟩

theorem runOn_failed {e : Stop} (hrun : m.core.exitCode = none)
    (h : m.core.stats.cycles < limit) (he : m.tick.outcome = .error e) :
    (runOn limit m events).outcome = .error e ∧
      (runOn limit m events).machine = m.tick.machine := by
  rw [runOn]
  split
  · rename_i code hc
    cases hrun.symm.trans hc
  · rw [dif_neg (BitVec.not_le.mpr h)]
    split
    · rename_i next reported ht
      rw [ht] at he
      cases he
    · rename_i next e' reported ht
      rw [ht] at he ⊢
      obtain rfl : e' = e := Except.error.inj he
      exact ⟨rfl, rfl⟩

theorem runOn_next (hrun : m.core.exitCode = none) (h : m.core.stats.cycles < limit)
    (ok : m.tick.outcome = .ok ()) :
    runOn limit m events = runOn limit m.tick.machine (events ++ m.tick.events) := by
  rw [runOn]
  split
  · rename_i code hc
    cases hrun.symm.trans hc
  · rw [dif_neg (BitVec.not_le.mpr h)]
    split
    · rename_i next reported ht
      exact congrArg (fun t : Tick => runOn limit t.machine (events ++ t.events)) ht.symm
    · rename_i next e reported ht
      rw [ht] at ok
      cases ok

end Round

theorem ticks_tick (m : Machine) (t : Nat) : m.tick.machine.ticks t = m.ticks (t + 1) := by
  induction t with
  | zero => rfl
  | succ t ih => exact congrArg (fun m' : Machine => m'.tick.machine) ih

theorem ending_none_iff {m : Machine} :
    m.ending? = none ↔ m.tick.outcome = .ok () ∧ m.tick.machine.core.exitCode = none := by
  unfold ending?
  cases m.tick.outcome with
  | error e => simp
  | ok u => simp

theorem ending_halted {m : Machine} {code : Word} (ok : m.tick.outcome = .ok ())
    (h : m.tick.machine.core.exitCode = some code) : m.ending? = some (.ok code) := by
  rw [ending?, ok, h]
  rfl

section Whole
variable {m : Machine} {limit : Count}

theorem left_tick (hrun : m.core.exitCode = none) (h : m.core.stats.cycles < limit) :
    m.left limit = m.tick.machine.left limit + 1 := by
  have hlt : m.core.stats.cycles.toNat < limit.toNat := h
  rw [left, left, tick_cycles hrun, Count.toNat_succ_of_lt h]
  omega

theorem left_pos_iff : 0 < m.left limit ↔ m.core.stats.cycles < limit :=
  Nat.sub_pos_iff_lt

theorem runOn_ends (hrun : m.core.exitCode = none) {k : Nat} {r : Except Stop Word}
    (before : ∀ j < k, (m.ticks j).ending? = none) (now : (m.ticks k).ending? = some r)
    (budget : k < m.left limit) (events : Array Event) :
    (runOn limit m events).outcome = r ∧ (runOn limit m events).machine = m.ticks (k + 1) := by
  induction k generalizing m events with
  | zero =>
    have hlt := left_pos_iff.mp budget
    change m.ending? = some r at now
    unfold ending? at now
    cases ho : m.tick.outcome with
    | error e =>
      rw [ho] at now
      obtain rfl := Option.some.inj now
      exact runOn_failed events hrun hlt ho
    | ok u =>
      rw [ho] at now
      obtain ⟨code, hcode, rfl⟩ := Option.map_eq_some_iff.mp now
      rw [runOn_next events hrun hlt ho]
      exact runOn_halted hcode limit _
  | succ k ih =>
    have hlt := left_pos_iff.mp (Nat.zero_lt_of_lt budget)
    obtain ⟨ok, hnext⟩ := ending_none_iff.mp (before 0 (Nat.zero_lt_succ k))
    rw [left_tick hrun hlt] at budget
    rw [runOn_next events hrun hlt ok, ← ticks_tick]
    apply ih hnext
    · intro j hj
      rw [ticks_tick]
      exact before (j + 1) (Nat.succ_lt_succ hj)
    · rwa [ticks_tick]
    · exact Nat.lt_of_succ_lt_succ budget

theorem runOn_cut (hrun : m.core.exitCode = none)
    (before : ∀ j < m.left limit, (m.ticks j).ending? = none) (events : Array Event) :
    (runOn limit m events).outcome = .error (.cycleLimit limit) ∧
      (runOn limit m events).machine = m.ticks (m.left limit) := by
  generalize hn : m.left limit = n at before ⊢
  induction n generalizing m events with
  | zero =>
    have hle : limit ≤ m.core.stats.cycles :=
      BitVec.not_lt.mp fun hlt => Nat.ne_of_gt (left_pos_iff.mpr hlt) hn
    exact runOn_exhausted events hrun hle
  | succ n ih =>
    have hlt : m.core.stats.cycles < limit := left_pos_iff.mp (hn ▸ Nat.zero_lt_succ n)
    obtain ⟨ok, hnext⟩ := ending_none_iff.mp (before 0 (Nat.zero_lt_succ n))
    rw [runOn_next events hrun hlt ok, ← ticks_tick]
    apply ih hnext
    · rw [left_tick hrun hlt] at hn
      exact Nat.succ.inj hn
    · intro j hj
      rw [ticks_tick]
      exact before (j + 1) (Nat.succ_lt_succ hj)

theorem ends_or_cut (m : Machine) (n : Nat) :
    (∃ k r, k < n ∧ (∀ j < k, (m.ticks j).ending? = none) ∧ (m.ticks k).ending? = some r) ∨
      ∀ j < n, (m.ticks j).ending? = none := by
  induction n with
  | zero => exact .inr fun j hj => absurd hj (Nat.not_lt_zero j)
  | succ n ih =>
    rcases ih with ⟨k, r, hk, hends⟩ | hall
    · exact .inl ⟨k, r, Nat.lt_succ_of_lt hk, hends⟩
    · cases hn : (m.ticks n).ending? with
      | some r => exact .inl ⟨n, r, Nat.lt_succ_self n, hall, hn⟩
      | none =>
        refine .inr fun j hj => ?_
        rcases Nat.lt_succ_iff_lt_or_eq.mp hj with hj | rfl
        · exact hall j hj
        · exact hn

theorem runOn_events (m : Machine) (limit : Count) (events later : Array Event) :
    (runOn limit m later).outcome = (runOn limit m events).outcome ∧
      (runOn limit m later).machine = (runOn limit m events).machine := by
  cases hrun : m.core.exitCode with
  | some code =>
    obtain ⟨ho, hm⟩ := runOn_halted hrun limit events
    rw [ho, hm]
    exact runOn_halted hrun limit later
  | none =>
    rcases ends_or_cut m (m.left limit) with ⟨k, r, hk, before, now⟩ | before
    · obtain ⟨ho, hm⟩ := runOn_ends hrun before now hk events
      rw [ho, hm]
      exact runOn_ends hrun before now hk later
    · obtain ⟨ho, hm⟩ := runOn_cut hrun before events
      rw [ho, hm]
      exact runOn_cut hrun before later

theorem run_tick (budget : 0 < m.left limit) (ok : m.tick.outcome = .ok ()) :
    (m.tick.machine.run limit).outcome = (m.run limit).outcome ∧
      (m.tick.machine.run limit).machine = (m.run limit).machine := by
  cases hrun : m.core.exitCode with
  | some code =>
    have hstays : m.tick = ⟨m, .ok (), []⟩ := tick_halted (Core.halted_some hrun)
    rw [hstays]
    exact ⟨rfl, rfl⟩
  | none =>
    have hround := runOn_next #[] hrun (left_pos_iff.mp budget) ok
    rw [run, run, hround]
    exact runOn_events _ _ _ _

theorem left_le_tick (budget : 0 < m.left limit) :
    m.left limit ≤ m.tick.machine.left limit + 1 := by
  cases hrun : m.core.exitCode with
  | some code =>
    have hstays : m.tick = ⟨m, .ok (), []⟩ := tick_halted (Core.halted_some hrun)
    rw [hstays]
    exact Nat.le_succ _
  | none => exact Nat.le_of_eq (left_tick hrun (left_pos_iff.mp budget))

theorem run_after {k : Nat} {m' : Machine} (h : m.after? k = some m') (budget : k ≤ m.left limit) :
    ((m'.run limit).outcome = (m.run limit).outcome ∧
      (m'.run limit).machine = (m.run limit).machine) ∧ m.left limit ≤ m'.left limit + k := by
  induction k generalizing m' with
  | zero =>
    obtain rfl : m = m' := Option.some.inj h
    exact ⟨⟨rfl, rfl⟩, Nat.le_refl _⟩
  | succ k ih =>
    obtain ⟨m₁, h₁, ok, rfl⟩ := after_pred h
    obtain ⟨⟨ho, hm⟩, hleft⟩ := ih h₁ (Nat.le_of_succ_le budget)
    have hpos : 0 < m₁.left limit := by omega
    obtain ⟨ho', hm'⟩ := run_tick hpos ok
    refine ⟨⟨ho'.trans ho, hm'.trans hm⟩, ?_⟩
    have hstep := left_le_tick hpos
    omega

end Whole

end Machine

namespace Core.Named

theorem next {c : Core} (h : c.Named) (ram : Memory) : (c.next ram).Named where
  idEx := by
    simp only [Core.next]
    split
    · decide
    · exact Issue.ofSlot_named _ _ _ _
  exMem := IdEx.execute_rd_lt h.idEx.2.2 _ _
  memWb := ExMem.access_rd_lt h.exMem _

theorem tick {m : Machine} (h : m.core.Named) : m.tick.machine.core.Named := by
  cases m.way with
  | rests _ _ stays => rwa [stays]
  | fails _ _ _ _ machine =>
    rw [machine]
    exact ⟨h.idEx, h.exMem, h.memWb⟩
  | halts _ _ _ _ machine =>
    rw [machine]
    exact ⟨h.idEx, h.exMem, Nat.zero_lt_succ _⟩
  | advances _ _ _ machine =>
    rw [machine]
    exact h.next _

theorem ticks {m : Machine} (h : m.core.Named) (t : Nat) : (m.ticks t).core.Named := by
  induction t with
  | zero => exact h
  | succ t ih => exact ih.tick

end Core.Named

namespace Machine

theorem ending_cases {m : Machine} (h : m.core.memWb.rd < 32) {r : Except Stop Word}
    (hr : m.ending? = some r) : (∃ code, r = .ok code) ∨ ∃ pc t, r = .error (.trap pc t) := by
  unfold ending? at hr
  cases m.way with
  | fails _ e stopping outcome _ =>
    rw [outcome] at hr
    obtain rfl := Option.some.inj hr
    obtain ⟨-, ⟨t, -, rfl⟩ | ⟨-, -, hlt, -⟩⟩ := stopping
    · exact .inr ⟨_, t, rfl⟩
    · exact absurd h hlt
  | rests _ _ stays =>
    rw [stays] at hr
    obtain ⟨code, -, rfl⟩ := Option.map_eq_some_iff.mp hr
    exact .inl ⟨code, rfl⟩
  | halts _ _ _ outcome _ | advances _ _ outcome _ =>
    rw [outcome] at hr
    obtain ⟨code, -, rfl⟩ := Option.map_eq_some_iff.mp hr
    exact .inl ⟨code, rfl⟩

/-- Whatever the latches hold, as long as the registers that they name exist,
and whatever the counter shows. A run of a machine that has halted does nothing;
any other ends with the first cycle that halts or fails, if the limit leaves it,
and is cut off by the limit if not. -/
theorem run_is_ticks (m : Machine) (limit : Count) (hn : m.core.Named) :
    (∀ code, m.core.exitCode = some code →
      (m.run limit).outcome = .ok code ∧ (m.run limit).machine = m) ∧
    (m.core.exitCode = none →
      (∀ n r, m.EndsIn n r → m.core.stats.cycles.toNat + n ≤ limit.toNat →
        (m.run limit).outcome = r ∧ (m.run limit).machine = m.ticks n ∧
          ((∃ code, r = .ok code) ∨ ∃ pc t, r = .error (.trap pc t))) ∧
      ((∀ n r, m.EndsIn n r → limit.toNat < m.core.stats.cycles.toNat + n) →
        (m.run limit).outcome = .error (.cycleLimit limit) ∧
          (m.run limit).machine = m.ticks (m.left limit))) ∧
    (∀ higher, limit ≤ higher → (m.run limit).outcome ≠ .error (.cycleLimit limit) →
      (m.run higher).outcome = (m.run limit).outcome ∧
        (m.run higher).machine = (m.run limit).machine) ∧
    ∀ k m', m.after? k = some m' → k ≤ m.left limit →
      (m'.run limit).outcome = (m.run limit).outcome ∧
        (m'.run limit).machine = (m.run limit).machine := by
  refine ⟨fun code hcode => runOn_halted hcode limit #[], fun hrun => ⟨?_, ?_⟩, ?_, ?_⟩
  · rintro n r ⟨k, rfl, before, now⟩ budget
    have hk : k < m.left limit := by unfold left; omega
    obtain ⟨ho, hm⟩ := runOn_ends hrun before now hk #[]
    exact ⟨ho, hm, ending_cases (hn.ticks k).memWb now⟩
  · intro late
    rcases ends_or_cut m (m.left limit) with ⟨k, r, hk, before, now⟩ | before
    · have hlate := late (k + 1) r ⟨k, rfl, before, now⟩
      unfold left at hk
      omega
    · exact runOn_cut hrun before #[]
  -- a run that was not cut off has met its end within the lower limit
  · intro higher hle hself
    cases hrun : m.core.exitCode with
    | some code =>
      obtain ⟨ho, hm⟩ := runOn_halted hrun limit #[]
      rw [run, run, ho, hm]
      exact runOn_halted hrun higher #[]
    | none =>
      rcases ends_or_cut m (m.left limit) with ⟨k, r, hk, before, now⟩ | before
      · have hmore : m.left limit ≤ m.left higher := Nat.sub_le_sub_right hle _
        obtain ⟨ho, hm⟩ := runOn_ends hrun before now hk #[]
        rw [run, run, ho, hm]
        exact runOn_ends hrun before now (Nat.lt_of_lt_of_le hk hmore) #[]
      · exact absurd (runOn_cut hrun before #[]).1 hself
  · intro k m' h budget
    exact (run_after h budget).1

/-- The limit leaves exactly the cycles that the program needs. -/
theorem run_is_ticks_patching : patching.core.Named ∧ patching.EndsIn 11 (.ok 42) ∧
    (patching.run 11).outcome = .ok 42 ∧ (patching.run 11).machine = patching.ticks 11 := by
  have hn : patching.core.Named := by decide
  have hafter : patching.after? 11 = some (patching.ticks 11) := by decide +kernel
  obtain ⟨m₁, h₁, ok, -⟩ := after_pred hafter
  rw [after_ticks h₁] at ok
  have hcode : (patching.ticks 10).tick.machine.core.exitCode = some 42 := by decide +kernel
  have hends : patching.EndsIn 11 (.ok 42) :=
    ⟨10, rfl, by decide +kernel, ending_halted ok hcode⟩
  obtain ⟨ho, hm, -⟩ := ((run_is_ticks patching 11 hn).2.1 rfl).1 11 _ hends (by decide)
  exact ⟨hn, hends, ho, hm⟩

end Machine

end FiveStage
