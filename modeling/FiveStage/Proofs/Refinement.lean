import FiveStage.Proofs.Disturbance

/-!
# The pipeline does what the machine without one does

From an empty pipeline, with no store in the way of a fetch, the registers are
after every cycle those of the machine without a pipeline after the retired
instructions. The two end in the same way, at the same instruction.
-/

set_option autoImplicit false

namespace FiveStage

open FiveStage.Sequential FiveStage.Sequential.State

/-- The memory of a state, or of the next one if the instruction is ahead in
the last latch: stores are made one stage before writeback. -/
def Sequential.State.ramAhead (s : State) (ahead : Bool) : Memory :=
  match s.step with
  | .next s' => if ahead then s'.ram else s.ram
  | _ => s.ram

/-- Whatever the number of cycles, the pipeline has come as far as the machine
without one has after the retired instructions, and ends where that one ends.
A cycle that stops at a trap leaves registers and memory alone. -/
structure Machine.Refines (m : Machine) : Prop where
  running : ∀ t m', m.after? t = some m' → m'.core.exitCode = none →
    ∃ s, m.sequential.after? (m.retirements t) = some s ∧
      m'.core.regs = s.regs ∧
      m'.ram = s.ramAhead m'.core.memWb.valid ∧
      m'.core.stats.retired = m.core.stats.retired + .ofNat 64 (m.retirements t)
  halted : ∀ t m' code, m.after? t = some m' → m'.core.exitCode = some code →
    ∃ n s, m.retirements t = n + 1 ∧
      m.sequential.after? n = some s ∧ s.step = .halted code ∧
      m'.core.regs = s.regs ∧ m'.ram = s.ram ∧
      m'.core.stats.retired = m.core.stats.retired + .ofNat 64 (n + 1)
  trapped : ∀ t m' e, m.after? t = some m' → m'.tick.outcome = .error e →
    ∃ s pc cause, m.sequential.after? (m.retirements t) = some s ∧
      s.step = .trapped pc cause ∧ e = .trap pc cause ∧
      m'.tick.machine.core.regs = s.regs ∧ m'.tick.machine.ram = s.ram ∧
      m'.tick.machine.core.stats.retired =
        m.core.stats.retired + .ofNat 64 (m.retirements t)
  /-- The pipeline never gets stuck before an instruction that the program has. -/
  complete : ∀ n s, m.sequential.after? n = some s →
    ∃ t m', m.after? t = some m' ∧ m'.core.exitCode = none ∧ m.retirements t = n ∧
      m'.Concludes s.step

theorem Sequential.State.ramAhead_false (s : State) : s.ramAhead false = s.ram := by
  unfold ramAhead
  split <;> rfl

theorem Sequential.State.ramAhead_true (s : State) :
    s.ramAhead true = (s.accessed (Slot.fetch s.ram s.pc)).1 := by
  unfold ramAhead
  rw [step_settle]
  cases hx : s.settle (Slot.fetch s.ram s.pc) with
  | next s' =>
    obtain ⟨-, -, rfl⟩ := settle_next hx
    rfl
  | halted code => exact (settle_halted (Slot.fetch_valid _ _) hx).2.2.2.1.symm
  | trapped pc cause => exact (settle_trapped hx).2.2.symm

theorem pipeline_refines (m : Machine) (hi : m.Idle) (hu : m.sequential.Undisturbed) :
    m.Refines where
  running := by
    intro t m' ha hrun
    cases hi.run_stands hu.steady ha with
    | running n flight time count cycles retired =>
      obtain ⟨s, hs, hregs⟩ := flight.retired
      have hram := flight.ram s hs
      rw [course_fetches] at hs
      rw [count]
      refine ⟨s, hs, hregs, ?_, retired⟩
      rw [hram, fetches_eq hs]
      cases m'.core.memWb.valid with
      | false => exact s.ramAhead_false.symm
      | true => exact s.ramAhead_true.symm
    | halted n s code attempt settled exit => cases hrun.symm.trans exit
  halted := by
    intro t m' code ha hexit
    cases hi.run_stands hu.steady ha with
    | running n flight => cases flight.running.symm.trans hexit
    | halted n s code' attempt settled exit regs ram count time cycles retired =>
      obtain rfl : code' = code := Option.some.inj (exit.symm.trans hexit)
      rw [settle_fetches attempt] at settled
      rw [course_fetches] at attempt
      exact ⟨n, s, count, attempt, settled, regs, ram, retired⟩
  trapped := by
    intro t m' e ha herr
    cases hi.run_stands hu.steady ha with
    | running n flight time count cycles retired =>
      rcases flight.pastMemory_cases with ⟨s, hs⟩ | ⟨hv, s, hs, ⟨code, hx⟩ | ⟨pc, cause, hx⟩⟩
      · cases (flight.tick_next hu.steady hs).1.symm.trans herr
      · cases (flight.tick_halts hv hs hx).1.symm.trans herr
      · obtain ⟨hout, -, hm⟩ := flight.tick_traps hv hs hx
        rw [settle_fetches hs] at hx
        rw [course_fetches] at hs
        rw [hm, count]
        exact ⟨s, pc, cause, hs, hx, Except.error.inj (herr.symm.trans hout), rfl, rfl, retired⟩
    | halted n s code attempt settled exit =>
      have hh : m'.core.halted = true := Core.halted_some exit
      rw [Machine.tick_halted hh] at herr
      cases herr
  complete := by
    intro n s hs
    have hcourse : course m.sequential.fetches m.sequential n = some s := by rwa [course_fetches]
    obtain ⟨m', ha, hn, hv, flight⟩ := hi.arrives hu.steady hcourse
    refine ⟨_, m', ha, flight.running, hn, ?_⟩
    rw [← settle_fetches hcourse]
    exact flight.concludes hu.steady hv hcourse

theorem pipeline_refines_storing :
    Machine.storing.Idle ∧ Machine.storing.sequential.Undisturbed ∧
      ∃ t m, Machine.storing.after? t = some m ∧ m.core.exitCode = some 42 := by
  have hi := Machine.storing_idle
  have hu := Machine.storing_undisturbed
  have hend : (Machine.storing.sequential.after? 5).map State.step = some (.halted 42) := by
    decide +kernel
  obtain ⟨s, hs, hstep⟩ := Option.map_eq_some_iff.mp hend
  obtain ⟨t, m, ha, -, -, hc⟩ := (pipeline_refines _ hi hu).complete 5 s hs
  rw [hstep] at hc
  exact ⟨hi, hu, t + 1, _, Machine.after_succ ha hc.1, hc.2.2.1⟩

end FiveStage
