import FiveStage.Machine.Core

/-!
# One clock cycle

Writeback commits first, so that decode reads the value it writes. Memory,
execute and decode then work on the latches as they stood when the cycle
began; the word for the first latch is fetched after the store of the same
cycle. The hazard unit decides what the latches and the pc take over.
-/

set_option autoImplicit false

namespace FiveStage

structure Tick where
  machine : Machine
  outcome : Except Stop Unit
  events : List Event

def Decision.count (d : Decision) (s : Stats) : Stats :=
  match d with
  | .stall => { s with stalls := s.stalls + 1 }
  | .flush => { s with flushes := s.flushes + 1 }
  | .noAction => s

theorem Stats.count_cycles (s : Stats) (d : Decision) : (d.count s).cycles = s.cycles := by
  cases d <;> rfl

namespace Core

def decisionEvents (c : Core) (h : Hazard) (target : Word) : Decision → List Event
  | .stall => [.stall c.stats.cycles c.ifId.pc h.rs1 h.rs2 h.rdEx h.rdMem]
  | .flush => [.flush c.stats.cycles c.ifId.pc target]
  | .noAction => []

/-- The clock edge: the latches and the pc take over what the hazard unit lets
through. -/
def latch (c : Core) (issue : Issue) (decision : Decision) (ram : Memory) (next : MemWb) : Core :=
  let steering := decision.steering
  { c with
    memWb := next
    exMem := c.executed
    idEx := if steering.idFlush then {} else issue.entry
    ifId :=
      if steering.ifFlush then {}
      else if steering.ifStall then c.ifId
      else Slot.fetch ram c.pc
    pc :=
      if steering.ifFlush then issue.target
      else if steering.pcStall then c.pc
      else c.pc + Word.instructionSize
    lastDecision := decision
    stats := decision.count c.stats }

def advance (c : Core) (ram : Memory) : Machine × List Event :=
  let issue := c.issue
  let hazard := c.hazard issue
  let decision := hazard.decision
  let events := c.decisionEvents hazard issue.target decision
  let (ram, next) := c.exMem.access ram
  (⟨c.latch issue decision ram next, ram⟩, events)

end Core

namespace Machine

/-- A machine that has halted stays as it is. When writeback ends the program
the younger stages no longer work, and neither do they when it traps. -/
def tick : Machine → Tick
  | ⟨core, ram⟩ =>
    if core.halted then ⟨⟨core, ram⟩, .ok (), []⟩
    else
      let core := { core with stats := core.stats.cycle }
      let view := core.viewEvents
      match core.commit with
      | .error e => ⟨⟨core, ram⟩, .error e, view⟩
      | .ok (committed, .halted code, events) =>
        ⟨⟨{ committed with exitCode := some code, memWb := {} }, ram⟩, .ok (),
          view ++ events ++ [.halt core.stats.cycles core.memWb.pc code]⟩
      | .ok (committed, _, events) =>
        let (machine, further) := committed.advance ram
        ⟨machine, .ok (), view ++ events ++ further⟩

theorem tick_cycles {m : Machine} (hrun : m.core.exitCode = none) :
    m.tick.machine.core.stats.cycles = m.core.stats.cycles + 1 := by
  obtain ⟨core, ram⟩ := m
  simp only at hrun
  have hh : core.halted = false := Core.halted_none hrun
  simp only [tick, hh, Bool.false_eq_true, if_false]
  split
  · rfl
  · rename_i committed code events hc
    exact Core.commit_cycles hc
  · rename_i committed outcome events hgo hc
    exact (Stats.count_cycles _ _).trans (Core.commit_cycles hc)

end Machine

end FiveStage
