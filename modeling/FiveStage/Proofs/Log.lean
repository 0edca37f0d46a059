import FiveStage.Proofs.Disturbance
import FiveStage.Proofs.Report

/-!
# What a run reports

The events of a run agree with its counters, one for each stall, flush, cycle
and retirement that is counted, and one for the halt. The cycles that they name
go up with the counter.
-/

set_option autoImplicit false

namespace FiveStage

namespace Machine

def log (m : Machine) : Nat → List Event
  | 0 => []
  | t + 1 => m.log t ++ (m.ticks t).tick.events

def outcomes (m : Machine) (t : Nat) : List (Except Stop Unit) :=
  (List.range t).map fun u => (m.ticks u).tick.outcome

def worked (m : Machine) : Nat → Nat
  | 0 => 0
  | t + 1 => m.worked t + (!(m.ticks t).core.halted).toNat

def counted? (m : Machine) : Option MemWb :=
  if m.tick.machine.core.stats.retired = m.core.stats.retired then none else some m.core.memWb

theorem tick_decisions (m : Machine) :
    m.tick.machine.core.stats.stalls = m.core.stats.stalls +
        .ofNat 64 (m.tick.events.countP (Event.tells .debug "stall")) ∧
      m.tick.machine.core.stats.flushes = m.core.stats.flushes +
        .ofNat 64 (m.tick.events.countP (Event.tells .debug "flush")) := by
  cases m.told with
  | rests _ r | fails _ _ r =>
    rw [r.tick_machine, r.count_debug, r.count_debug]
    exact ⟨(BitVec.add_zero _).symm, (BitVec.add_zero _).symm⟩
  | halts _ _ _ r =>
    rw [r.tick_machine, r.count_debug, r.count_debug]
    simp [traced, Event.tells, Event.level, Event.message, Stats.retire_decisions, Stats.cycle]
  | advances _ r =>
    obtain ⟨hstalls, hflushes, -⟩ := m.core.steering_kinds
    rw [r.tick_machine, r.count_debug, r.count_debug, hstalls, hflushes]
    exact ⟨Core.next_stalls _ _, Core.next_flushes _ _⟩

theorem tick_halts_told (m : Machine) : m.tick.machine.core.halted.toNat =
    m.core.halted.toNat + m.tick.events.countP (Event.tells .debug "halt") := by
  cases m.told with
  | rests _ r | fails _ _ r =>
    rw [r.tick_machine, r.count_debug]
    rfl
  | halts running _ _ r =>
    rw [r.tick_machine, r.count_debug]
    simp [traced, Core.halted, running, Event.tells, Event.level, Event.message]
  | advances _ r =>
    rw [r.tick_machine, r.count_debug, m.core.steering_kinds.2.2]
    rfl

theorem tick_counts (m : Machine) : m.tick.machine.core.stats.cycles =
    m.core.stats.cycles + .ofNat 64 (!m.core.halted).toNat := by
  cases hx : m.core.exitCode with
  | some code =>
    have hh : m.core.halted = true := Core.halted_some hx
    rw [tick_halted hh, hh]
    exact (BitVec.add_zero _).symm
  | none =>
    have hh : m.core.halted = false := Core.halted_none hx
    rw [tick_cycles hx, hh]
    rfl

theorem tick_views (m : Machine) (ht : m.core.trace = true) :
    m.tick.events.countP (Event.tells .trace "pipeline") = (!m.core.halted).toNat := by
  rw [List.countP_eq_length_filter]
  cases m.told with
  | rests halted r =>
    rw [r.filter_trace ht, halted]
    rfl
  | fails running _ r =>
    rw [r.filter_trace ht]
    simp [Core.halted, running, Core.view, Event.tells, Event.level, Event.message]
  | halts running _ _ r | advances running r =>
    rw [r.filter_trace ht, Core.shown_views]
    simp [Core.halted, running]

theorem tick_retires (m : Machine) :
    m.tick.machine.core.stats.retired =
        m.core.stats.retired + .ofNat 64 m.counted?.isSome.toNat ∧
      (m.core.trace = true → m.tick.events.filter (Event.tells .trace "retire") =
        m.counted?.toList.map fun e => .retire e.pc e.inst) := by
  have hidle (h : m.tick.machine.core.stats.retired = m.core.stats.retired) :
      m.counted? = none :=
    if_pos h
  have hretires (h : m.tick.machine.core.stats.retired = m.core.stats.retired + 1) :
      m.counted? = some m.core.memWb :=
    if_neg (by rw [h]; bv_omega)
  cases m.told with
  | rests _ r | fails _ _ r =>
    have h : m.tick.machine.core.stats.retired = m.core.stats.retired := by
      rw [r.tick_machine]
      rfl
    rw [hidle h]
    refine ⟨h.trans (BitVec.add_zero _).symm, fun ht => ?_⟩
    rw [r.filter_trace ht]
    simp [Core.view, Event.tells, Event.level, Event.message]
  | halts _ valid _ r =>
    have h : m.tick.machine.core.stats.retired = m.core.stats.retired + 1 := by
      rw [r.tick_machine]
      exact Stats.retire_retired _ _
    rw [hretires h]
    refine ⟨h, fun ht => ?_⟩
    rw [r.filter_trace ht, Core.shown_retirements, Core.retiring, if_pos valid]
    rfl
  | advances _ r =>
    have h : m.tick.machine.core.stats.retired =
        m.core.stats.retired + .ofNat 64 m.core.memWb.valid.toNat := by
      rw [r.tick_machine]
      exact Core.next_retired _ _
    have hshown (ht : m.core.trace = true) :
        m.tick.events.filter (Event.tells .trace "retire") = m.core.retiring :=
      (r.filter_trace ht _).trans m.core.shown_retirements
    unfold Core.retiring at hshown
    cases hv : m.core.memWb.valid with
    | false =>
      rw [hv] at h hshown
      rw [hidle (h.trans (BitVec.add_zero _))]
      exact ⟨h, hshown⟩
    | true =>
      rw [hv] at h hshown
      rw [hretires h]
      exact ⟨h, hshown⟩

theorem tick_named (m : Machine) :
    ∀ e ∈ m.tick.events, ∀ k, e.cycle? = some k → k = m.tick.machine.core.stats.cycles := by
  intro e he k hk
  cases m.told with
  | rests _ r => cases r.mem_events he
  | fails running _ r =>
    obtain rfl : e = m.core.cycled.view := List.mem_singleton.mp (r.mem_events he)
    rw [tick_cycles running]
    exact m.core.shown_named _ List.mem_cons_self k hk
  | halts running _ _ r =>
    rw [tick_cycles running]
    rcases List.mem_append.mp (r.mem_events he) with hs | hs
    · exact m.core.shown_named e hs k hk
    · obtain rfl := List.mem_singleton.mp hs
      exact (Option.some.inj hk).symm
  | advances running r =>
    rw [tick_cycles running]
    rcases List.mem_append.mp (r.mem_events he) with hs | hs
    · exact m.core.shown_named e hs k hk
    · exact m.core.steering_named e hs k hk

section Runs
variable (m : Machine)

theorem ticks_traced (b : Bool) (t : Nat) : (m.traced b).ticks t = (m.ticks t).traced b := by
  induction t with
  | zero => rfl
  | succ t ih =>
    rw [ticks, ih]
    exact (tick_traced (m := m.ticks t) b).2.1

theorem ticks_trace (t : Nat) : (m.ticks t).core.trace = m.core.trace := by
  change ((m.traced m.core.trace).ticks t).core.trace = m.core.trace
  rw [ticks_traced]
  rfl

theorem outcomes_traced (b : Bool) (t : Nat) : (m.traced b).outcomes t = m.outcomes t := by
  refine List.map_congr_left fun u _ => ?_
  rw [ticks_traced]
  exact (tick_traced (m := m.ticks u) b).1

theorem log_untraced (b : Bool) (t : Nat) :
    ((m.traced b).log t).filter (fun e => e.level ≠ .trace) = (m.traced false).log t := by
  induction t with
  | zero => rfl
  | succ t ih =>
    rw [log, log, List.filter_append, ih, ticks_traced, ticks_traced]
    exact congrArg _ (tick_traced (m := m.ticks t) b).2.2

/-- A counter that each cycle raises by what it reports. -/
theorem log_counts (f : Machine → Count) {p : Event → Bool}
    (step : ∀ m' : Machine, f m'.tick.machine = f m' + .ofNat 64 (m'.tick.events.countP p))
    (t : Nat) : f (m.ticks t) = f m + .ofNat 64 ((m.log t).countP p) := by
  induction t with
  | zero => exact (BitVec.add_zero _).symm
  | succ t ih => rw [ticks, step, ih, log, List.countP_append, BitVec.ofNat_add, BitVec.add_assoc]

theorem log_halts (t : Nat) : (m.log t).countP (Event.tells .debug "halt") =
    if m.core.halted = false ∧ (m.ticks t).core.halted = true then 1 else 0 := by
  have hsum : (m.ticks t).core.halted.toNat =
      m.core.halted.toNat + (m.log t).countP (Event.tells .debug "halt") := by
    induction t with
    | zero => rfl
    | succ t ih => rw [ticks, tick_halts_told, ih, log, List.countP_append, Nat.add_assoc]
  generalize (m.log t).countP (Event.tells .debug "halt") = n at hsum
  cases hb : m.core.halted <;> cases ha : (m.ticks t).core.halted <;>
    simp only [hb, ha, Bool.toNat_true, Bool.toNat_false] at hsum <;> simp <;> omega

theorem ticks_cycles (t : Nat) :
    (m.ticks t).core.stats.cycles = m.core.stats.cycles + .ofNat 64 (m.worked t) := by
  induction t with
  | zero => exact (BitVec.add_zero _).symm
  | succ t ih => rw [ticks, tick_counts, ih, worked, BitVec.ofNat_add, BitVec.add_assoc]

theorem log_views (ht : m.core.trace = true) (t : Nat) :
    (m.log t).countP (Event.tells .trace "pipeline") = m.worked t := by
  induction t with
  | zero => rfl
  | succ t ih =>
    rw [log, List.countP_append, ih, tick_views _ ((m.ticks_trace t).trans ht), worked]

theorem log_retired (t : Nat) : (m.ticks t).core.stats.retired =
    m.core.stats.retired + .ofNat 64 (m.record counted? t).length := by
  induction t with
  | zero => exact (BitVec.add_zero _).symm
  | succ t ih =>
    rw [ticks, (tick_retires _).1, ih, record_length_succ, BitVec.ofNat_add, BitVec.add_assoc]

theorem log_retirements (ht : m.core.trace = true) (t : Nat) :
    (m.log t).filter (Event.tells .trace "retire") =
      (m.record counted? t).map fun p => .retire p.2.pc p.2.inst := by
  induction t with
  | zero => rfl
  | succ t ih =>
    have hstep := (tick_retires (m.ticks t)).2 ((m.ticks_trace t).trans ht)
    rw [log, List.filter_append, ih, hstep, record, List.map_append]
    cases (m.ticks t).counted? <;> rfl

end Runs

/-- Values of a counter that starts at `c` and is advanced `n` times, in the
order in which it takes them. -/
def Ascending (c : Count) (n : Nat) (values : List Count) : Prop :=
  ∃ numbers : List Nat, numbers.Pairwise (· ≤ ·) ∧ (∀ k ∈ numbers, k ≤ n) ∧
    values = numbers.map fun k => c + .ofNat 64 k

theorem ascending_replicate {c : Count} {n : Nat} {values : List Count}
    (h : ∀ k ∈ values, k = c + .ofNat 64 n) : values = (List.replicate values.length n).map
      fun k => c + .ofNat 64 k := by
  rw [List.map_replicate]
  exact List.eq_replicate_iff.mpr ⟨rfl, h⟩

theorem log_ascending (m : Machine) (t : Nat) :
    Ascending m.core.stats.cycles (m.worked t) ((m.log t).filterMap Event.cycle?) := by
  induction t with
  | zero => exact ⟨[], List.Pairwise.nil, by simp, rfl⟩
  | succ t ih =>
    obtain ⟨numbers, hsorted, hle, hvalues⟩ := ih
    have hup : m.worked t ≤ m.worked (t + 1) := Nat.le_add_right _ _
    let named := (m.ticks t).tick.events.filterMap Event.cycle?
    have hnamed : ∀ k ∈ named, k = m.core.stats.cycles + .ofNat 64 (m.worked (t + 1)) := by
      intro k hk
      obtain ⟨e, he, hc⟩ := List.mem_filterMap.mp hk
      rw [← ticks_cycles]
      exact tick_named _ e he k hc
    refine ⟨numbers ++ List.replicate named.length (m.worked (t + 1)), ?_, ?_, ?_⟩
    · have hsame : (List.replicate named.length (m.worked (t + 1))).Pairwise (· ≤ ·) :=
        List.pairwise_replicate.mpr (.inr (Nat.le_refl _))
      refine List.pairwise_append.mpr ⟨hsorted, hsame, ?_⟩
      intro j hj k hk
      rw [List.eq_of_mem_replicate hk]
      exact Nat.le_trans (hle j hj) hup
    · intro k hk
      rcases List.mem_append.mp hk with hk | hk
      · exact Nat.le_trans (hle k hk) hup
      · exact Nat.le_of_eq (List.eq_of_mem_replicate hk)
    · rw [log, List.filterMap_append, List.map_append, ← hvalues]
      exact congrArg _ (ascending_replicate hnamed)

theorem Ascending.pairwise {c : Count} {n : Nat} {values : List Count} (h : Ascending c n values)
    (room : c.toNat + n < 2 ^ 64) : values.Pairwise (· ≤ ·) := by
  obtain ⟨numbers, hsorted, hle, rfl⟩ := h
  refine List.pairwise_map.mpr (hsorted.imp_of_mem fun {j k} hj hk hjk => ?_)
  have hj := hle j hj
  have hk := hle k hk
  rw [BitVec.le_def, BitVec.toNat_add, BitVec.toNat_add, BitVec.toNat_ofNat, BitVec.toNat_ofNat]
  omega

/-- The events of the first `t` cycles against the counters, which are numbers of
64 bits. -/
structure LogAgrees (m : Machine) (t : Nat) : Prop where
  stalls : (m.ticks t).core.stats.stalls =
    m.core.stats.stalls + .ofNat 64 ((m.log t).countP (Event.tells .debug "stall"))
  flushes : (m.ticks t).core.stats.flushes =
    m.core.stats.flushes + .ofNat 64 ((m.log t).countP (Event.tells .debug "flush"))
  halts : (m.log t).countP (Event.tells .debug "halt") =
    if m.core.halted = false ∧ (m.ticks t).core.halted = true then 1 else 0
  views : m.core.trace = true → (m.ticks t).core.stats.cycles =
    m.core.stats.cycles + .ofNat 64 ((m.log t).countP (Event.tells .trace "pipeline"))
  retired : (m.ticks t).core.stats.retired =
    m.core.stats.retired + .ofNat 64 (m.record counted? t).length
  retirements : m.core.trace = true →
    ((m.log t).filter (Event.tells .trace "retire")).map Event.message =
      (m.record counted? t).map fun p =>
        "retire " ++ Text.hex8 p.2.pc.toNat ++ ": " ++ disassemble p.2.inst
  named : ∀ u < t, ∀ e ∈ (m.ticks u).tick.events, ∀ k, e.cycle? = some k →
    k = (m.ticks (u + 1)).core.stats.cycles
  order : Ascending m.core.stats.cycles (m.worked t) ((m.log t).filterMap Event.cycle?)
  ascending : m.core.stats.cycles.toNat + m.worked t < 2 ^ 64 →
    ((m.log t).filterMap Event.cycle?).Pairwise (· ≤ ·)

/-- Whatever the latches hold, with and without a trace. -/
theorem log_agrees (m : Machine) (t : Nat) :
    (∀ b, (m.traced b).outcomes t = m.outcomes t ∧
      (m.traced b).ticks t = (m.ticks t).traced b ∧
      ((m.traced b).log t).filter (fun e => e.level ≠ .trace) = (m.traced false).log t) ∧
    m.LogAgrees t :=
  ⟨fun b => ⟨m.outcomes_traced b t, m.ticks_traced b t, m.log_untraced b t⟩,
    { stalls := m.log_counts (fun m' => m'.core.stats.stalls) (fun m' => m'.tick_decisions.1) t
      flushes := m.log_counts (fun m' => m'.core.stats.flushes) (fun m' => m'.tick_decisions.2) t
      halts := m.log_halts t
      views := fun ht => by rw [ticks_cycles, m.log_views ht]
      retired := m.log_retired t
      retirements := fun ht => by
        rw [m.log_retirements ht, List.map_map]
        rfl
      named := fun u _ => (m.ticks u).tick_named
      order := m.log_ascending t
      ascending := (m.log_ascending t).pairwise }⟩

theorem log_agrees_storing :
    ((storing.traced true).log 13).countP (Event.tells .debug "halt") = 1 ∧
      (((storing.traced true).log 13).filter (Event.tells .trace "retire")).map Event.message =
        ["retire 0x00001000: auipc t1, 0x0", "retire 0x00001004: addi t0, zero, 42",
          "retire 0x00001008: sw t0, 28(t1)", "retire 0x0000100c: lw a0, 28(t1)",
          "retire 0x00001010: beq a0, t0, 8", "retire 0x00001018: ebreak"] ∧
      (((storing.traced true).log 13).filterMap Event.cycle?).Pairwise (· ≤ ·) := by
  have h : (storing.traced true).LogAgrees 13 := (log_agrees (storing.traced true) 13).2
  refine ⟨h.halts.trans (if_pos (by decide +kernel)), ?_, h.ascending (by decide +kernel)⟩
  rw [h.retirements rfl]
  decide +kernel

end Machine

end FiveStage
