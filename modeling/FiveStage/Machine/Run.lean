import FiveStage.Machine.Tick

/-!
# Running to the end

A run repeats cycles until the program halts, an instruction traps, or the
counter of cycles has reached the limit. It is looked at before each cycle, so
that a halt in the last one still counts. Every cycle advances the counter, and
this is why a run ends.
-/

set_option autoImplicit false

namespace FiveStage

structure Run where
  machine : Machine
  outcome : Except Stop Word
  events : Array Event

namespace Machine

theorem tick_nearer {m next : Machine} {limit : Count} (hrun : m.core.exitCode = none)
    (hlimit : ¬limit ≤ m.core.stats.cycles) (htick : m.tick.machine = next) :
    limit.toNat - next.core.stats.cycles.toNat < limit.toNat - m.core.stats.cycles.toNat := by
  have hlt : m.core.stats.cycles < limit := BitVec.not_le.mp hlimit
  have hnat : m.core.stats.cycles.toNat < limit.toNat := hlt
  rw [← htick, tick_cycles hrun, Count.toNat_succ_of_lt hlt]
  omega

/-- A run until the machine has worked for `limit` cycles in all; `events` are
those reported before. -/
def runOn (limit : Count) (m : Machine) (events : Array Event) : Run :=
  match hrun : m.core.exitCode with
  | some code =>
    ⟨m, .ok code,
      events.push (.programHalted code m.core.stats.cycles m.core.stats.retired)⟩
  | none =>
    if hlimit : limit ≤ m.core.stats.cycles then ⟨m, .error (.cycleLimit limit), events⟩
    else
      match htick : m.tick with
      | ⟨next, .ok (), reported⟩ =>
        have := tick_nearer hrun hlimit (congrArg Tick.machine htick)
        runOn limit next (events ++ reported)
      | ⟨next, .error e, reported⟩ => ⟨next, .error e, events ++ reported⟩
termination_by limit.toNat - m.core.stats.cycles.toNat

def run (limit : Count) (m : Machine) : Run :=
  runOn limit m #[]

end Machine

end FiveStage
