import FiveStage.Proofs.Stopped

/-!
# What a cycle reports

A cycle in each of the ways in which it can go, with its events. A trace is only
looked at: with and without it the machine does the same, and but for the trace
events it reports the same.
-/

set_option autoImplicit false

namespace FiveStage

namespace Event

def tells (level : Level) (word : String) (e : Event) : Bool :=
  decide (e.level = level) && word.toList.isPrefixOf e.message.toList

def cycle? : Event → Option Count
  | pipeline cycle .. | stall cycle .. | flush cycle .. | halt cycle .. => some cycle
  | _ => none

end Event

namespace Core

def view (c : Core) : Event :=
  .pipeline c.stats.cycles c.pc c.ifId c.idEx.toSlot c.exMem.toSlot c.memWb.toSlot

theorem steering_kinds (c : Core) :
    c.steering.countP (Event.tells .debug "stall") = (decide (c.decided = .stall)).toNat ∧
      c.steering.countP (Event.tells .debug "flush") = (decide (c.decided = .flush)).toNat ∧
      c.steering.countP (Event.tells .debug "halt") = 0 := by
  unfold steering
  cases c.decided <;> simp [decisionEvents, Event.tells, Event.level, Event.message]

theorem shown_views (c : Core) :
    (c.cycled.view :: c.retiring).filter (Event.tells .trace "pipeline") = [c.cycled.view] := by
  unfold retiring
  split <;> simp [view, Event.tells, Event.level, Event.message, String.toList_append]

theorem shown_retirements (c : Core) :
    (c.cycled.view :: c.retiring).filter (Event.tells .trace "retire") = c.retiring := by
  unfold retiring
  split <;> simp [view, Event.tells, Event.level, Event.message, String.toList_append]

theorem shown_named (c : Core) :
    ∀ e ∈ c.cycled.view :: c.retiring, ∀ k, e.cycle? = some k → k = c.stats.cycles + 1 := by
  unfold retiring
  split <;> simp [view, cycled, Stats.cycle, Event.cycle?]

theorem steering_named (c : Core) :
    ∀ e ∈ c.steering, ∀ k, e.cycle? = some k → k = c.stats.cycles + 1 := by
  unfold steering
  cases c.decided <;> simp [decisionEvents, cycled, Stats.cycle, Event.cycle?]

end Core

namespace Machine

def traced (m : Machine) (b : Bool) : Machine :=
  { m with core := { m.core with trace := b } }

/-- A cycle with its events, the trace ones apart. All but those is the same with
and without a trace. -/
structure Report (m : Machine) (outcome : Except Stop Unit) (next : Machine)
    (shown said : List Event) : Prop where
  outcome : ∀ b, (m.traced b).tick.outcome = outcome
  machine : ∀ b, (m.traced b).tick.machine = next.traced b
  events : ∀ b, (m.traced b).tick.events = (if b then shown else []) ++ said
  shown_level : ∀ e ∈ shown, e.level = .trace
  said_level : ∀ e ∈ said, e.level = .debug

inductive Told (m : Machine) : Prop where
  | rests (halted : m.core.halted = true) (report : m.Report (.ok ()) m [] [])
  | fails (running : m.core.exitCode = none) (e : Stop)
      (report : m.Report (.error e) ⟨m.core.cycled, m.ram⟩ [m.core.cycled.view] [])
  | halts (running : m.core.exitCode = none) (valid : m.core.memWb.valid = true) (code : Word)
      (report : m.Report (.ok ())
        ⟨{ m.core with
          regs := m.core.writeback
          memWb := {}
          exitCode := some code
          stats := m.core.stats.cycle.retire m.core.memWb.ctrl }, m.ram⟩
        (m.core.cycled.view :: m.core.retiring)
        [.halt m.core.cycled.stats.cycles m.core.memWb.pc code])
  | advances (running : m.core.exitCode = none)
      (report : m.Report (.ok ()) ⟨m.core.next m.ram, (m.core.exMem.access m.ram).1⟩
        (m.core.cycled.view :: m.core.retiring) m.core.steering)

theorem told (m : Machine) : m.Told := by
  have hshown : ∀ e ∈ m.core.cycled.view :: m.core.retiring, e.level = .trace := by
    unfold Core.retiring
    split <;> simp [Core.view, Event.level]
  cases m.way with
  | rests code halted _ =>
    have hh : m.core.halted = true := Core.halted_some halted
    have htick (b : Bool) : (m.traced b).tick = ⟨m.traced b, .ok (), []⟩ := tick_halted hh
    exact .rests hh
      { outcome := fun b => by rw [htick]
        machine := fun b => by rw [htick]
        events := fun b => by rw [htick]; cases b <;> rfl
        shown_level := by simp
        said_level := by simp }
  | fails running e stopping _ _ =>
    have htick (b : Bool) := tick_stopping (m := m.traced b) running stopping
    exact .fails running e
      { outcome := fun b => by rw [htick]
        machine := fun b => by rw [htick]; rfl
        events := fun b => by rw [htick]; cases b <;> rfl
        shown_level := by simp [Core.view, Event.level]
        said_level := by simp }
  | halts running live halt outcome _ =>
    obtain ⟨hv, ht⟩ := Slot.live_iff.mp live
    have hr : m.core.memWb.ctrl.regWrite = true → m.core.memWb.rd < 32 := by
      refine fun hw => Classical.byContradiction fun hr => ?_
      rw [tick_stopping running ⟨hv, .inr ⟨ht, hw, hr, rfl⟩⟩] at outcome
      cases outcome
    have htick (b : Bool) := tick_ending (m := m.traced b) running hv ht halt hr
    exact .halts running hv (m.core.writeback.read Reg.a0)
      { outcome := fun b => by rw [htick]
        machine := fun b => by rw [htick]; rfl
        events := fun b => by rw [htick]; cases b <;> rfl
        shown_level := hshown
        said_level := by simp [Event.level] }
  | advances running passes _ _ =>
    have htick (b : Bool) := tick_passing (m := m.traced b) running passes
    exact .advances running
      { outcome := fun b => by rw [htick]
        machine := fun b => by rw [htick]; rfl
        events := fun b => by rw [htick]; cases b <;> rfl
        shown_level := hshown
        said_level := by
          unfold Core.steering
          cases m.core.decided <;> simp [Core.decisionEvents, Event.level] }

section Cycle
variable {m : Machine}

namespace Report

variable {outcome : Except Stop Unit} {next : Machine} {shown said : List Event}

theorem tick_machine (r : m.Report outcome next shown said) :
    m.tick.machine = next.traced m.core.trace :=
  r.machine m.core.trace

theorem tick_events (r : m.Report outcome next shown said) :
    m.tick.events = (if m.core.trace then shown else []) ++ said :=
  r.events m.core.trace

/-- The trace events are those that a machine without a trace leaves out. -/
theorem untraced (r : m.Report outcome next shown said) (b : Bool) :
    (m.traced b).tick.events.filter (fun e => e.level ≠ .trace) = said := by
  have hshown : (if b then shown else []).filter (fun e => e.level ≠ .trace) = [] := by
    refine List.filter_eq_nil_iff.mpr fun e he => ?_
    cases b with
    | false => cases he
    | true => simp [r.shown_level e he]
  have hsaid : said.filter (fun e => e.level ≠ .trace) = said :=
    List.filter_eq_self.mpr fun e he => by simp [r.said_level e he]
  rw [r.events b, List.filter_append, hshown, hsaid, List.nil_append]

theorem count_debug (r : m.Report outcome next shown said) (word : String) :
    m.tick.events.countP (Event.tells .debug word) = said.countP (Event.tells .debug word) := by
  have hshown : (if m.core.trace then shown else []).countP (Event.tells .debug word) = 0 := by
    refine List.countP_eq_zero.mpr fun e he => ?_
    split at he
    · simp [Event.tells, r.shown_level e he]
    · cases he
  rw [r.tick_events, List.countP_append, hshown, Nat.zero_add]

theorem filter_trace (r : m.Report outcome next shown said) (h : m.core.trace = true)
    (word : String) :
    m.tick.events.filter (Event.tells .trace word) = shown.filter (Event.tells .trace word) := by
  have hsaid : said.filter (Event.tells .trace word) = [] :=
    List.filter_eq_nil_iff.mpr fun e he => by simp [Event.tells, r.said_level e he]
  rw [r.tick_events, if_pos h, List.filter_append, hsaid, List.append_nil]

theorem mem_events (r : m.Report outcome next shown said) {e : Event} (h : e ∈ m.tick.events) :
    e ∈ shown ++ said := by
  rw [r.tick_events] at h
  refine (List.mem_append.mp h).elim (fun hs => ?_) (List.mem_append_right shown)
  split at hs
  · exact List.mem_append_left said hs
  · cases hs

theorem untouched (r : m.Report outcome next shown said) (b : Bool) :
    (m.traced b).tick.outcome = m.tick.outcome ∧
      (m.traced b).tick.machine = m.tick.machine.traced b ∧
      (m.traced b).tick.events.filter (fun e => e.level ≠ .trace) =
        (m.traced false).tick.events := by
  refine ⟨(r.outcome b).trans (r.outcome m.core.trace).symm, ?_, ?_⟩
  · rw [r.tick_machine]
    exact r.machine b
  · rw [r.untraced b]
    exact (r.events false).symm

end Report

theorem tick_traced (b : Bool) :
    (m.traced b).tick.outcome = m.tick.outcome ∧
      (m.traced b).tick.machine = m.tick.machine.traced b ∧
      (m.traced b).tick.events.filter (fun e => e.level ≠ .trace) =
        (m.traced false).tick.events := by
  cases m.told with
  | rests _ r | fails _ _ r | halts _ _ _ r | advances _ r => exact r.untouched b

end Cycle

end Machine

end FiveStage
