import FiveStage.Proofs.Disturbance

/-!
# The cycle in which an instruction retires

The schedule of the machine without a pipeline: what every instruction writes,
reads and redirects is told from the program alone. The pipeline keeps to it in
every cycle.
-/

set_option autoImplicit false

namespace FiveStage

open FiveStage.Sequential FiveStage.Sequential.State

namespace Instruction

/-- How many cycles after a producer an instruction that reads its result has
to leave decode. -/
def delay (producer consumer : Instruction) : Nat :=
  if producer.rd ≠ 0 ∧ (consumer.rs1 = producer.rd ∨ consumer.rs2 = producer.rd) then
    if producer.opcode? = some .load ∧ consumer.usesInDecode = true then 3
    else if producer.opcode? = some .load ∨ consumer.usesInDecode = true then 2
    else 1
  else 0

def redirects (d : Instruction) (regs : Registers) : Bool :=
  match d.opcode? with
  | some .jal | some .jalr => true
  | some .branch =>
    ((Condition.ofCode? d.funct3.toNat).map fun cond =>
      cond.holds (regs.read d.rs1) (regs.read d.rs2)).getD false
  | _ => false

theorem transfer_redirects {d : Instruction} {c : Control} (h : d.control? = some c)
    (regs : Registers) (pc : Word) :
    (Issue.transfer pc d c (regs.read d.rs1) (regs.read d.rs2)).1 = d.redirects regs := by
  obtain ⟨o, ho, -, -, -, hb, hj, -⟩ := control_signals h
  rw [Issue.transfer, redirects, hb, hj, ho]
  cases o <;> rfl

theorem lag_delay {v w : Word} {p c : Control} (hp : (decode v).control? = some p)
    (hc : (decode w).control? = some c) :
    (Snapshot.ofInstruction (decode v) p).lag (Snapshot.ofInstruction (decode w) c) =
      (decode v).delay (decode w) := by
  obtain ⟨o, ho, -, hload, -⟩ := control_signals hp
  have hrd : (Snapshot.ofInstruction (decode v) p).rd = (decode v).rd.toNat := control_rd hp
  have hmem : p.memRead = true ↔ (decode v).opcode? = some .load := by simp [hload, ho]
  unfold Snapshot.lag delay
  rw [hrd]
  by_cases hread : (decode v).rd ≠ 0 ∧
      ((decode w).rs1 = (decode v).rd ∨ (decode w).rs2 = (decode v).rd)
  · have hnat : (decode v).rd.toNat ≠ 0 ∧ ((decode v).rd.toNat = (decode w).rs1.toNat ∨
        (decode v).rd.toNat = (decode w).rs2.toNat) := by
      refine ⟨Reg.toNat_ne_zero hread.1, ?_⟩
      rcases hread.2 with h | h
      · exact .inl (by rw [h])
      · exact .inr (by rw [h])
    have ht := control_transfer hc hread.1 hread.2
    rw [if_pos hread]
    simp only [Snapshot.ofInstruction, if_pos hnat, ht, ← hmem]
    cases p.memRead <;> cases (decode w).usesInDecode <;> rfl
  · rw [if_neg hread, if_neg]
    rintro ⟨hz, hr⟩
    refine hread ⟨fun h0 => hz (by rw [h0]; rfl), ?_⟩
    rcases hr with h | h
    · exact .inl (BitVec.eq_of_toNat_eq h.symm)
    · exact .inr (BitVec.eq_of_toNat_eq h.symm)

end Instruction

namespace Sequential.State

def instruction? (s : State) : Option Instruction :=
  match s.ram.fetch s.pc with
  | .error _ => none
  | .ok w => if (decode w).control?.isSome then some (decode w) else none

/-- Instruction `k` of the program that starts here, counted from zero. -/
def attempted? (s₀ : State) (k : Nat) : Option Instruction :=
  (s₀.after? k).bind instruction?

def redirection (s₀ : State) (k : Nat) : Nat :=
  match s₀.after? k, s₀.attempted? k with
  | some s, some d => (d.redirects s.regs).toNat
  | _, _ => 0

def separation (s₀ : State) (j k : Nat) : Nat :=
  match s₀.attempted? j, s₀.attempted? k with
  | some p, some c => p.delay c
  | _, _ => 0

/-- The cycle in which instruction `k` leaves decode. -/
def schedule (s₀ : State) : Nat → Nat :=
  leaves s₀.redirection s₀.separation

variable {s₀ s : State} {k : Nat} {d : Instruction}

theorem issue_some (h : s.instruction? = some d) :
    ∃ w c, d = decode w ∧ d.control? = some c ∧
      s.issue (Slot.fetch s.ram s.pc) =
        Issue.ofLegal s.pc w d c (s.regs.read d.rs1) (s.regs.read d.rs2) := by
  unfold instruction? at h
  cases hf : s.ram.fetch s.pc with
  | error t => simp [hf] at h
  | ok w =>
    cases hc : (decode w).control? with
    | none => simp [hf, hc] at h
    | some c =>
      simp only [hf, hc, Option.isSome_some, if_true, Option.some.injEq] at h
      subst h
      refine ⟨w, c, rfl, hc, ?_⟩
      have hslot : Slot.fetch s.ram s.pc = { valid := true, pc := s.pc, inst := w } := by
        simp [Slot.fetch, hf]
      rw [hslot]
      exact issue_legal rfl hc

theorem issue_none (h : s.instruction? = none) :
    (s.issue (Slot.fetch s.ram s.pc)).snapshot = {} ∧
      (s.issue (Slot.fetch s.ram s.pc)).jump = false := by
  rcases (Slot.fetch s.ram s.pc).legal_or_fault (Slot.fetch_valid _ _) with
    ⟨hl, c, hc⟩ | ⟨t, -, hi⟩
  · unfold instruction? at h
    cases hf : s.ram.fetch s.pc with
    | error t => simp [Slot.fetch, hf, Slot.live] at hl
    | ok w =>
      simp only [Slot.fetch, hf] at hc
      simp [hf, hc] at h
  · rw [issue, hi]
    exact ⟨rfl, rfl⟩

theorem course_redirection (s₀ : State) : courseRedirect s₀.fetches s₀ = s₀.redirection := by
  funext k
  unfold courseRedirect courseIssue redirection attempted?
  rw [course_fetches]
  cases hs : s₀.after? k with
  | none => rfl
  | some s =>
    simp only [fetches_eq hs, Option.bind_some]
    cases hd : s.instruction? with
    | none =>
      rw [(issue_none hd).2]
      rfl
    | some d =>
      obtain ⟨w, c, rfl, hc, hi⟩ := issue_some hd
      rw [hi]
      exact congrArg Bool.toNat (Instruction.transfer_redirects hc _ _)

theorem course_snapshot (s₀ : State) (k : Nat) :
    match s₀.attempted? k with
    | none => (courseIssue s₀.fetches s₀ k).snapshot = {}
    | some d => ∃ w c, d = decode w ∧ d.control? = some c ∧
        (courseIssue s₀.fetches s₀ k).snapshot = Snapshot.ofInstruction d c := by
  unfold courseIssue attempted?
  rw [course_fetches]
  cases hs : s₀.after? k with
  | none => rfl
  | some s =>
    simp only [fetches_eq hs, Option.bind_some]
    cases hd : s.instruction? with
    | none => exact (issue_none hd).1
    | some d =>
      obtain ⟨w, c, rfl, hc, hi⟩ := issue_some hd
      exact ⟨w, c, rfl, hc, by rw [hi]; rfl⟩

theorem course_separation (s₀ : State) : courseLag s₀.fetches s₀ = s₀.separation := by
  funext j k
  have hj := s₀.course_snapshot j
  have hk := s₀.course_snapshot k
  unfold courseLag separation
  cases hp : s₀.attempted? j with
  | none =>
    simp only [hp] at hj ⊢
    rw [hj]
    rfl
  | some p =>
    cases hc : s₀.attempted? k with
    | none =>
      simp only [hc] at hk ⊢
      rw [hk, Snapshot.lag, if_neg]
      rintro ⟨hz, h | h⟩ <;> exact hz h
    | some c =>
      simp only [hp] at hj
      simp only [hc] at hk
      obtain ⟨v, cp, rfl, hcp, hsp⟩ := hj
      obtain ⟨w, cc, rfl, hcc, hsc⟩ := hk
      rw [hsp, hsc]
      exact Instruction.lag_delay hcp hcc

theorem course_schedule (s₀ : State) : courseLeaves s₀.fetches s₀ = s₀.schedule := by
  rw [courseLeaves, schedule, course_redirection, course_separation]

end Sequential.State

/-- Every instruction is in the last latch after the cycle that is two behind
its cycle of the schedule, and retires in the next one. -/
structure Machine.Punctual (m : Machine) : Prop where
  attempt : ∀ k s, m.sequential.after? k = some s →
    ∃ m', m.after? (m.sequential.schedule k + 2) = some m' ∧
      m.retirements (m.sequential.schedule k + 2) = k ∧
      m'.core.memWb.valid = true ∧ m'.core.memWb.pc = s.pc ∧
      m'.tick.machine.core.stats.cycles = .ofNat 64 (m.sequential.schedule k + 3) ∧
      m'.Concludes s.step
  retired : ∀ t m', m.after? t = some m' → ∀ k, k < m.retirements t ↔
    (∃ s, m.sequential.after? k = some s) ∧ m.sequential.schedule k + 3 ≤ t
  total : ∀ t m' code, m.after? t = some m' → m'.core.exitCode = some code →
    ∃ n s, m.sequential.after? n = some s ∧ s.step = .halted code ∧
      m.retirements t = n + 1 ∧
      m'.core.stats.cycles = .ofNat 64 (m.sequential.schedule n + 3)

theorem cycle_accurate (m : Machine) (hi : m.Idle) (h0 : m.core.stats.cycles = 0)
    (hu : m.sequential.Undisturbed) : m.Punctual where
  attempt := by
    intro k s hs
    have hcourse : course m.sequential.fetches m.sequential k = some s := by rwa [course_fetches]
    obtain ⟨m', ha, hn, hv, flight⟩ := hi.arrives hu.steady hcourse
    rw [course_schedule] at ha hn
    have hpc : m'.core.memWb.pc = s.pc := by
      have hvalid : (m.sequential.fetches k).valid = true := by
        rw [fetches_eq hs, Slot.fetch_valid]
      rw [flight.memWb hv s hcourse, s.accessed_pc hvalid, fetches_eq hs, Slot.fetch_pc]
    have hconclude : m'.Concludes s.step := by
      rw [← settle_fetches hcourse]
      exact flight.concludes hu.steady hv hcourse
    refine ⟨m', ha, hn, hv, hpc, ?_, hconclude⟩
    rw [Machine.tick_cycles flight.running]
    cases hi.run_stands hu.steady ha with
    | running n' flight' time count cycles =>
      have hsucc : BitVec.ofNat 64 (m.sequential.schedule k + 3) =
          BitVec.ofNat 64 (m.sequential.schedule k + 2) + 1#64 := BitVec.ofNat_add _ 1
      rw [cycles, h0, hsucc]
      exact congrArg (· + 1#64) (BitVec.zero_add _)
    | halted n' s' code attempt settled exit =>
      exact absurd (flight.running.symm.trans exit) nofun
  retired := by
    intro t m' ha k
    rw [(hi.run_stands hu.steady ha).retired_iff, course_fetches, course_schedule]
  total := by
    intro t m' code ha hexit
    cases hi.run_stands hu.steady ha with
    | running n flight => exact absurd (flight.running.symm.trans hexit) nofun
    | halted n s code' attempt settled exit regs ram count time cycles retired =>
      obtain rfl : code' = code := Option.some.inj (exit.symm.trans hexit)
      rw [settle_fetches attempt] at settled
      rw [course_fetches] at attempt
      rw [h0, course_schedule] at cycles
      exact ⟨n, s, attempt, settled, count, cycles.trans (BitVec.zero_add _)⟩

theorem cycle_accurate_storing :
    Machine.storing.Idle ∧ Machine.storing.core.stats.cycles = 0 ∧
      Machine.storing.sequential.Undisturbed ∧
      ∃ m, Machine.storing.after? 12 = some m ∧
        m.tick.machine.core.exitCode = some 42 ∧ m.tick.machine.core.stats.cycles = 13 := by
  have hi := Machine.storing_idle
  have hu := Machine.storing_undisturbed
  have hlast : Machine.storing.sequential.schedule 5 = 10 :=
    leaves_unique (f := fun k => [2, 3, 4, 5, 8, 10].getD k 0) (n := 6) (by decide +kernel)
      (by decide)
  have hend : (Machine.storing.sequential.after? 5).map State.step = some (.halted 42) := by
    decide +kernel
  obtain ⟨s, hs, hstep⟩ := Option.map_eq_some_iff.mp hend
  obtain ⟨m, ha, -, -, -, hcycles, hc⟩ := (cycle_accurate _ hi rfl hu).attempt 5 s hs
  rw [hlast] at ha hcycles
  rw [hstep] at hc
  exact ⟨hi, rfl, hu, m, ha, hc.2.2.1, hcycles⟩

end FiveStage
