import FiveStage.Proofs.Timing

/-!
# From an empty pipeline to the end of the program

Every cycle of a machine that began with an empty pipeline moves the
instructions in flight on, retires the one that halts, or stops at the one that
traps. An induction over the cycles gives the whole run; the schedule gives the
cycle in which an instruction comes to the last latch, so that none is waited
for in vain.
-/

set_option autoImplicit false

namespace FiveStage

open FiveStage.Sequential FiveStage.Sequential.State

structure Machine.Idle (m : Machine) : Prop where
  running : m.core.exitCode = none
  ifId : m.core.ifId.valid = false
  idEx : m.core.idEx.valid = false
  exMem : m.core.exMem.valid = false
  memWb : m.core.memWb.valid = false

/-- The machine is about to begin the cycle in which an instruction retires with
this outcome; one that traps stops the cycle instead. -/
def Machine.Concludes (m : Machine) : Outcome → Prop
  | .next s =>
    m.tick.outcome = .ok () ∧ m.retires = true ∧
      m.tick.machine.core.exitCode = none ∧ m.tick.machine.core.regs = s.regs ∧
      m.tick.machine.core.stats.retired = m.core.stats.retired + 1
  | .halted code =>
    m.tick.outcome = .ok () ∧ m.retires = true ∧
      m.tick.machine.core.exitCode = some code ∧
      m.tick.machine.core.stats.retired = m.core.stats.retired + 1
  | .trapped pc cause =>
    m.tick.outcome = .error (.trap pc cause) ∧ m.retires = false ∧
      m.tick.machine.core.stats.retired = m.core.stats.retired

/-- Fetch brings in the instructions of the course even if it works up to two
instructions ahead of the memory stage. -/
def Sequential.State.Steady (slots : Nat → Slot) (s₀ : State) : Prop :=
  ∀ j k s s', course slots s₀ j = some s → course slots s₀ k = some s' → j ≤ k → k ≤ j + 2 →
    slots k = Slot.fetch s.ram s'.pc

variable {slots : Nat → Slot} {s₀ s s' : State} {n t k : Nat} {m m' m₀ : Machine}

namespace InFlight

theorem fetch_eq (h : InFlight slots s₀ n m) (hst : Steady slots s₀)
    (hs : course slots s₀ (m.core.pastDecode n + m.core.ifId.valid.toNat) = some s) :
    slots (m.core.pastDecode n + m.core.ifId.valid.toNat) =
      Slot.fetch (m.core.exMem.access m.ram).1 s.pc := by
  have hle : m.core.pastExecute n ≤ m.core.pastDecode n + m.core.ifId.valid.toNat :=
    (Nat.le_add_right _ _).trans (Nat.le_add_right _ _)
  obtain ⟨s', hs'⟩ := course_le hs hle
  have hram := (h.at_execute hs').2.1
  have h1 := Bool.toNat_le m.core.idEx.valid
  have h2 := Bool.toNat_le m.core.ifId.valid
  rw [hram]
  exact hst _ _ _ _ hs' hs hle (by unfold Core.pastDecode; omega)

theorem tick_next (h : InFlight slots s₀ n m) (hst : Steady slots s₀)
    (hs : course slots s₀ (m.core.pastMemory n) = some s) :
    m.tick.outcome = .ok () ∧
      m.tick.machine = ⟨m.core.next m.ram, (m.core.exMem.access m.ram).1⟩ ∧
      m.retires = m.core.memWb.valid ∧
      InFlight slots s₀ (m.core.pastMemory n) m.tick.machine := by
  obtain ⟨hp, -, -⟩ := h.at_memory hs
  rw [Machine.tick_passing h.running hp]
  refine ⟨rfl, rfl, Machine.retires_passing h.running hp, ?_⟩
  exact h.advance hs fun _ _ hs' => h.fetch_eq hst hs'

/-- The last latch holds an instruction that the program attempts; nothing of it
is in the registers yet, while its store is in memory. -/
theorem at_writeback (h : InFlight slots s₀ n m) (hv : m.core.memWb.valid = true)
    (hs : course slots s₀ n = some s) :
    (slots n).valid = true ∧ m.core.memWb = (s.accessed (slots n)).2 ∧
      m.core.regs = s.regs ∧ m.ram = (s.accessed (slots n)).1 := by
  have hwb := h.memWb hv s hs
  have hfilled : (slots n).valid = true := by rw [← s.accessed_valid, ← hwb, hv]
  have hram := h.ram s hs
  rw [if_pos hv] at hram
  obtain ⟨s', hs', hregs⟩ := h.retired
  obtain rfl : s = s' := Option.some.inj (hs.symm.trans hs')
  exact ⟨hfilled, hwb, hregs, hram⟩

theorem tick_halts {code : Word} (h : InFlight slots s₀ n m) (hv : m.core.memWb.valid = true)
    (hs : course slots s₀ n = some s) (hx : s.settle (slots n) = .halted code) :
    m.tick.outcome = .ok () ∧ m.retires = true ∧
      m.tick.machine = ⟨{ m.core with
        regs := s.regs
        memWb := {}
        exitCode := some code
        stats := m.core.stats.cycle.retire m.core.memWb.ctrl }, s.ram⟩ := by
  obtain ⟨hfilled, hwb, hregs, hmem⟩ := h.at_writeback hv hs
  obtain ⟨ht, hh, hw, hram, hcode⟩ := settle_halted hfilled hx
  rw [hram] at hmem
  rw [← hwb] at ht hh hw
  obtain ⟨hok, hm⟩ := Machine.tick_halting h.running hv ht hh hw
  refine ⟨hok, Machine.retires_halting h.running (Slot.live_iff.mpr ⟨hv, ht⟩), ?_⟩
  rw [hm, hcode, hmem, ← hregs]

theorem tick_traps {pc : Word} {cause : Trap} (h : InFlight slots s₀ n m)
    (hv : m.core.memWb.valid = true) (hs : course slots s₀ n = some s)
    (hx : s.settle (slots n) = .trapped pc cause) :
    m.tick.outcome = .error (.trap pc cause) ∧ m.retires = false ∧
      m.tick.machine =
        ⟨{ m.core with regs := s.regs, stats := m.core.stats.cycle }, s.ram⟩ := by
  obtain ⟨hfilled, hwb, hregs, hmem⟩ := h.at_writeback hv hs
  obtain ⟨ht, hpc, hram⟩ := settle_trapped hx
  have hat : (s.accessed (slots n)).2.pc = pc := by rw [s.accessed_pc hfilled, hpc]
  rw [hram] at hmem
  rw [← hwb] at ht hat
  rw [Machine.tick_stopping h.running ⟨hv, .inl ⟨cause, ht, rfl⟩⟩]
  refine ⟨by rw [hat], Machine.retires_trapping ht, ?_⟩
  rw [hmem, ← hregs, Core.cycled]

theorem concludes (h : InFlight slots s₀ n m) (hst : Steady slots s₀)
    (hv : m.core.memWb.valid = true) (hs : course slots s₀ n = some s) :
    m.Concludes (s.settle (slots n)) := by
  cases hx : s.settle (slots n) with
  | next s' =>
    have hpast : m.core.pastMemory n = n + 1 := by simp [Core.pastMemory, hv]
    have hs' := course_succ hs hx
    obtain ⟨hok, hm, hr, -⟩ := h.tick_next hst (hpast ▸ hs')
    refine ⟨hok, hr.trans hv, ?_⟩
    rw [hm]
    refine ⟨h.running, (h.at_memory (hpast ▸ hs')).2.1, ?_⟩
    rw [Core.next_retired, hv]
    rfl
  | halted code =>
    obtain ⟨hok, hr, hm⟩ := h.tick_halts hv hs hx
    rw [Machine.Concludes, hm]
    exact ⟨hok, hr, rfl, Stats.retire_retired _ _⟩
  | trapped pc cause =>
    obtain ⟨herr, hr, hm⟩ := h.tick_traps hv hs hx
    rw [Machine.Concludes, hm]
    exact ⟨herr, hr, rfl⟩

theorem pastMemory_cases (h : InFlight slots s₀ n m) :
    (∃ s, course slots s₀ (m.core.pastMemory n) = some s) ∨
      m.core.memWb.valid = true ∧ ∃ s, course slots s₀ n = some s ∧
        ((∃ code, s.settle (slots n) = .halted code) ∨
          ∃ pc cause, s.settle (slots n) = .trapped pc cause) := by
  obtain ⟨s, hs, -⟩ := h.retired
  unfold Core.pastMemory
  cases m.core.memWb.valid with
  | false => exact .inl ⟨s, hs⟩
  | true =>
    cases hx : s.settle (slots n) with
    | next s' => exact .inl ⟨s', course_succ hs hx⟩
    | halted code => exact .inr ⟨rfl, s, hs, .inl ⟨code, hx⟩⟩
    | trapped pc cause => exact .inr ⟨rfl, s, hs, .inr ⟨pc, cause, hx⟩⟩

end InFlight

namespace OnTime

theorem remaining (ot : OnTime slots s₀ t n m) (hk : n ≤ k) (hs : course slots s₀ k = some s) :
    t < courseLeaves slots s₀ k + 2 ∨
      t = courseLeaves slots s₀ k + 2 ∧ k = n ∧ m.core.memWb.valid = true := by
  rcases Nat.lt_or_ge k (m.core.pastDecode n) with hlt | hge
  · rcases Core.past_decode_cases hlt with hn | ⟨rfl, hv⟩ | ⟨rfl, hv⟩ | ⟨rfl, hv⟩
    · omega
    · exact .inr ⟨ot.memWb hv s hs, rfl, hv⟩
    · have := ot.exMem hv s hs
      omega
    · have := ot.idEx hv s hs
      omega
  · obtain ⟨s', hs'⟩ := course_le hs hge
    have hle : courseLeaves slots s₀ (m.core.pastDecode n) ≤ courseLeaves slots s₀ k :=
      leaves_le_of_le hge
    have henters := courseEnters_le slots s₀ (m.core.pastDecode n)
    cases hv : m.core.ifId.valid with
    | true =>
      have := (ot.decoding hv s' hs').2
      omega
    | false =>
      have := ot.fetching hv s' hs'
      omega

end OnTime

/-- Where a machine that began with an empty pipeline stands after `t` cycles. -/
inductive Stands (slots : Nat → Slot) (m₀ : Machine) (t : Nat) (m : Machine) : Prop where
  | running (n : Nat) (flight : InFlight slots m₀.sequential n m)
      (time : OnTime slots m₀.sequential t n m) (count : m₀.retirements t = n)
      (cycles : m.core.stats.cycles = m₀.core.stats.cycles + .ofNat 64 t)
      (retired : m.core.stats.retired = m₀.core.stats.retired + .ofNat 64 n)
  | halted (n : Nat) (s : State) (code : Word) (attempt : course slots m₀.sequential n = some s)
      (settled : s.settle (slots n) = .halted code) (exit : m.core.exitCode = some code)
      (regs : m.core.regs = s.regs) (ram : m.ram = s.ram) (count : m₀.retirements t = n + 1)
      (time : courseLeaves slots m₀.sequential n + 3 ≤ t)
      (cycles : m.core.stats.cycles =
        m₀.core.stats.cycles + .ofNat 64 (courseLeaves slots m₀.sequential n + 3))
      (retired : m.core.stats.retired = m₀.core.stats.retired + .ofNat 64 (n + 1))

theorem Machine.Idle.stands (hi : m₀.Idle) : Stands slots m₀ 0 m₀ := by
  refine .running 0 ?_ ?_ rfl (BitVec.add_zero _).symm (BitVec.add_zero _).symm
  · exact {
      running := hi.running
      retired := ⟨m₀.sequential, rfl, rfl⟩
      ram := fun s hs => by
        obtain rfl : m₀.sequential = s := Option.some.inj hs
        rw [hi.memWb]
        rfl
      memWb := fun hv => absurd hv (by simp [hi.memWb])
      exMem := fun hv => absurd hv (by simp [hi.exMem])
      idEx := fun hv => absurd hv (by simp [hi.idEx])
      ifId := fun hv => absurd hv (by simp [hi.ifId])
      pc := fun s hs => by
        simp only [Core.pastDecode, Core.pastExecute, Core.pastMemory, hi.memWb, hi.exMem,
          hi.idEx, hi.ifId] at hs ⊢
        obtain rfl : m₀.sequential = s := Option.some.inj hs
        rfl }
  · exact {
      retired := fun k hk => absurd hk (Nat.not_lt_zero k)
      memWb := fun hv => absurd hv (by simp [hi.memWb])
      exMem := fun hv => absurd hv (by simp [hi.exMem])
      idEx := fun hv => absurd hv (by simp [hi.idEx])
      decoding := fun hv => absurd hv (by simp [hi.ifId])
      fetching := fun _ s hs => by
        simp only [Core.pastDecode, Core.pastExecute, Core.pastMemory, hi.memWb, hi.exMem,
          hi.idEx]
        rfl }

theorem Machine.retirements_pastMemory (ha : m₀.after? t = some m)
    (hr : m.retires = m.core.memWb.valid) :
    m₀.retirements (t + 1) = m.core.pastMemory (m₀.retirements t) := by
  rw [retirements_succ ha, hr, Core.pastMemory]
  cases m.core.memWb.valid <;> rfl

theorem Stands.tick (h : Stands slots m₀ t m) (hst : Steady slots m₀.sequential)
    (ha : m₀.after? t = some m) (hok : m.tick.outcome = .ok ()) :
    Stands slots m₀ (t + 1) m.tick.machine := by
  have hcount := Machine.retirements_succ ha
  cases h with
  | running n flight time count cycles retired =>
    rcases flight.pastMemory_cases with ⟨s, hs⟩ | ⟨hv, s, hs, ⟨code, hx⟩ | ⟨pc, cause, hx⟩⟩
    · obtain ⟨-, hm, hr, hnext⟩ := flight.tick_next hst hs
      have hpast : m₀.retirements (t + 1) = m.core.pastMemory n := by
        rw [Machine.retirements_pastMemory ha hr, count]
      refine .running (m.core.pastMemory n) hnext (hm ▸ time.advance flight hs) hpast ?_ ?_
      · rw [hm, Core.next_cycles, cycles, BitVec.ofNat_add, BitVec.add_assoc]
        rfl
      · rw [hm, Core.next_retired, retired, Core.pastMemory, BitVec.ofNat_add, BitVec.add_assoc]
    · obtain ⟨-, hr, hm⟩ := flight.tick_halts hv hs hx
      have hnow := time.memWb hv s hs
      have hsucc : courseLeaves slots m₀.sequential n + 3 = t + 1 := by omega
      refine .halted n s code hs hx (by rw [hm]) (by rw [hm]) (by rw [hm]) ?_ hsucc.le ?_ ?_
      · rw [hcount, if_pos hr, count]
      · rw [hm, hsucc, BitVec.ofNat_add, ← BitVec.add_assoc, ← cycles]
        exact Stats.retire_cycles _ _
      · rw [hm, BitVec.ofNat_add, ← BitVec.add_assoc, ← retired]
        exact Stats.retire_retired _ _
    · obtain ⟨herr, -, -⟩ := flight.tick_traps hv hs hx
      cases herr.symm.trans hok
  | halted n s code attempt settled exit regs ram count time cycles retired =>
    have hh : m.core.halted = true := Core.halted_some exit
    have hr : m.retires = false := Machine.retires_halted hh
    rw [Machine.tick_halted hh]
    exact .halted n s code attempt settled exit regs ram (by rw [hcount, hr, count]; rfl)
      (Nat.le_succ_of_le time) cycles retired

theorem Machine.Idle.run_stands (hi : m₀.Idle) (hst : Steady slots m₀.sequential)
    (h : m₀.after? t = some m) : Stands slots m₀ t m := by
  induction t generalizing m with
  | zero =>
    obtain rfl : m₀ = m := Option.some.inj h
    exact hi.stands
  | succ t ih =>
    obtain ⟨m₁, hm₁, hok, rfl⟩ := Machine.after_pred h
    exact (ih hm₁).tick hst hm₁ hok

/-- Until its cycle in writeback, nothing ends the run before an instruction. -/
theorem Machine.Idle.run_before (hi : m₀.Idle) (hst : Steady slots m₀.sequential)
    (hs : course slots m₀.sequential k = some s)
    (ht : t ≤ courseLeaves slots m₀.sequential k + 2) :
    ∃ m, m₀.after? t = some m ∧ m₀.retirements t ≤ k ∧
      InFlight slots m₀.sequential (m₀.retirements t) m ∧
      OnTime slots m₀.sequential t (m₀.retirements t) m := by
  induction t with
  | zero =>
    have hstart : Stands slots m₀ 0 m₀ := hi.stands
    cases hstart with
    | running n flight time count => exact ⟨m₀, rfl, Nat.zero_le k, count ▸ flight, count ▸ time⟩
    | halted n s code attempt settled exit regs ram count => exact absurd count (by simp [retirements])
  | succ t ih =>
    obtain ⟨m, ha, hn, flight, time⟩ := ih (Nat.le_of_succ_le ht)
    -- while an instruction is waited for, the program goes on
    have hgo : ∃ s', course slots m₀.sequential (m.core.pastMemory (m₀.retirements t)) = some s' ∧
        m.core.pastMemory (m₀.retirements t) ≤ k := by
      rcases Nat.lt_or_eq_of_le hn with hlt | heq
      · have hle : m.core.pastMemory (m₀.retirements t) ≤ k := by
          have := Bool.toNat_le m.core.memWb.valid
          unfold Core.pastMemory
          omega
        obtain ⟨s', hs'⟩ := course_le hs hle
        exact ⟨s', hs', hle⟩
      · have hv : m.core.memWb.valid = false := by
          cases hv : m.core.memWb.valid with
          | false => rfl
          | true =>
            have := time.memWb hv s (heq ▸ hs)
            rw [heq] at this
            omega
        rw [Core.pastMemory, hv, heq]
        exact ⟨s, hs, Nat.le_refl k⟩
    obtain ⟨s', hs', hle⟩ := hgo
    obtain ⟨hok, hm, hr, hnext⟩ := flight.tick_next hst hs'
    refine ⟨m.tick.machine, after_succ ha hok, ?_⟩
    rw [retirements_pastMemory ha hr]
    exact ⟨hle, hnext, hm ▸ time.advance flight hs'⟩

/-- Every instruction of the program comes to the last latch, in its cycle. -/
theorem Machine.Idle.arrives (hi : m₀.Idle) (hst : Steady slots m₀.sequential)
    (hs : course slots m₀.sequential k = some s) :
    ∃ m, m₀.after? (courseLeaves slots m₀.sequential k + 2) = some m ∧
      m₀.retirements (courseLeaves slots m₀.sequential k + 2) = k ∧
      m.core.memWb.valid = true ∧ InFlight slots m₀.sequential k m := by
  obtain ⟨m, ha, hn, flight, time⟩ := hi.run_before hst hs (Nat.le_refl _)
  rcases time.remaining hn hs with hlt | ⟨-, hk, hv⟩
  · omega
  · exact ⟨m, ha, hk.symm, hv, hk ▸ flight⟩

theorem Stands.retired_iff (h : Stands slots m₀ t m) (k : Nat) : k < m₀.retirements t ↔
    (∃ s, course slots m₀.sequential k = some s) ∧
      courseLeaves slots m₀.sequential k + 3 ≤ t := by
  cases h with
  | running n flight time count cycles retired =>
    rw [count]
    constructor
    · intro hk
      obtain ⟨s, hs, -⟩ := flight.retired
      exact ⟨course_le hs hk.le, time.retired k hk⟩
    · rintro ⟨⟨s, hs⟩, ht⟩
      rcases Nat.lt_or_ge k n with hlt | hge
      · exact hlt
      · rcases time.remaining hge hs with hlt | ⟨heq, -⟩ <;> omega
  | halted n s code attempt settled exit regs ram count time cycles retired =>
    rw [count]
    constructor
    · intro hk
      have hle : courseLeaves slots m₀.sequential k ≤ courseLeaves slots m₀.sequential n :=
        leaves_le_of_le (Nat.lt_succ_iff.mp hk)
      exact ⟨course_le attempt (Nat.lt_succ_iff.mp hk), by omega⟩
    · rintro ⟨⟨s', hs'⟩, -⟩
      rcases Nat.lt_or_ge k (n + 1) with hlt | hge
      · exact hlt
      · obtain ⟨s₁, hs₁⟩ := course_le hs' hge
        obtain ⟨s₂, hs₂, hnext⟩ := course_pred hs₁
        obtain rfl : s = s₂ := Option.some.inj (attempt.symm.trans hs₂)
        exact absurd (settled.symm.trans hnext) nofun

end FiveStage
