import FiveStage.Isa.Control

/-!
# Statistics

Counters of cycles, of retired instructions by kind, and of what the hazard
unit did.
-/

set_option autoImplicit false

namespace FiveStage

structure Stats where
  cycles : Count := 0
  retired : Count := 0
  loads : Count := 0
  stores : Count := 0
  branches : Count := 0
  alu : Count := 0
  system : Count := 0
  stalls : Count := 0
  flushes : Count := 0
  deriving DecidableEq

namespace Stats

/-- Counts an instruction of the kind that its signals show. A register write
without memory access or transfer is arithmetic, anything else is system. -/
def retire (s : Stats) (c : Control) : Stats :=
  let s := { s with retired := s.retired + 1 }
  if c.memRead then { s with loads := s.loads + 1 }
  else if c.memWrite then { s with stores := s.stores + 1 }
  else if c.isTransfer then { s with branches := s.branches + 1 }
  else if c.halt || !c.regWrite then { s with system := s.system + 1 }
  else { s with alu := s.alu + 1 }

def cycle (s : Stats) : Stats :=
  { s with cycles := s.cycles + 1 }

theorem retire_cycles (s : Stats) (c : Control) : (s.retire c).cycles = s.cycles := by
  unfold retire
  repeat' split
  all_goals rfl

end Stats

end FiveStage
