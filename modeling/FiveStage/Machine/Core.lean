import FiveStage.Pipeline.Issue
import FiveStage.Pipeline.Result
import FiveStage.Stats
import FiveStage.Event

/-!
# The core and its memory

A core holds the registers, the pc, the four latches and what is observed of
them. A machine is a core together with the memory it works on.
-/

set_option autoImplicit false

namespace FiveStage

structure Core where
  regs : Registers
  pc : Word
  ifId : Slot := {}
  idEx : IdEx := {}
  exMem : ExMem := {}
  memWb : MemWb := {}
  lastDecision : Decision := .noAction
  trace : Bool := false
  exitCode : Option Word := none
  stats : Stats := {}
  deriving DecidableEq

structure Machine where
  core : Core
  ram : Memory
  deriving DecidableEq

inductive Stop where
  | trap (pc : Word) (cause : Trap)
  /-- A result is to be written to a register that does not exist. -/
  | noRegister (r : Nat)
  | cycleLimit (limit : Count)
  deriving DecidableEq

inductive Commit where
  | idle
  | retired
  | halted (code : Word)
  deriving DecidableEq

namespace Core

def halted (c : Core) : Bool :=
  c.exitCode.isSome

theorem halted_none {c : Core} (h : c.exitCode = none) : c.halted = false := by
  rw [halted, h, Option.isSome_none]

theorem halted_some {c : Core} {code : Word} (h : c.exitCode = some code) :
    c.halted = true := by
  rw [halted, h, Option.isSome_some]

def written? (c : Core) : Option Registers :=
  if c.memWb.ctrl.regWrite then c.regs.write? c.memWb.rd c.memWb.result else some c.regs

/-- Writeback: the instruction in the last latch takes effect and is counted.
Nothing changes if it has met a trap. The exit code of a halt is read after the
instruction's own register write. -/
def commit (c : Core) : Except Stop (Core × Commit × List Event) :=
  if !c.memWb.valid then .ok (c, .idle, [])
  else match c.memWb.trap with
    | some t => .error (.trap c.memWb.pc t)
    | none =>
      match c.written? with
      | none => .error (.noRegister c.memWb.rd)
      | some regs =>
        let events := if c.trace then [Event.retire c.memWb.pc c.memWb.inst] else []
        let outcome := if c.memWb.ctrl.halt then .halted (regs.read Reg.a0) else .retired
        .ok ({ c with regs := regs, stats := c.stats.retire c.memWb.ctrl }, outcome, events)

theorem commit_cycles {c c' : Core} {outcome : Commit} {events : List Event}
    (h : c.commit = .ok (c', outcome, events)) : c'.stats.cycles = c.stats.cycles := by
  unfold commit at h
  split at h
  · rw [(Prod.mk.inj (Except.ok.inj h)).1]
  · split at h
    · cases h
    · split at h
      · cases h
      · rw [← (Prod.mk.inj (Except.ok.inj h)).1]
        exact Stats.retire_cycles _ _

def issue (c : Core) : Issue :=
  Issue.ofSlot c.ifId c.regs c.exMem c.memWb

def hazard (c : Core) (issue : Issue) : Hazard :=
  Hazard.ofSnapshots issue.jump issue.snapshot (Snapshot.ofIdEx c.idEx)
    (Snapshot.ofExMem c.exMem)

def executed (c : Core) : ExMem :=
  c.idEx.execute c.exMem c.memWb

def viewEvents (c : Core) : List Event :=
  if c.trace then
    [.pipeline c.stats.cycles c.pc c.ifId c.idEx.toSlot c.exMem.toSlot c.memWb.toSlot]
  else []

end Core

end FiveStage
