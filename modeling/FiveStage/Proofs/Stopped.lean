import Mathlib.Algebra.Group.Nat.Defs
import FiveStage.Proofs.Accounting
import FiveStage.Proofs.Budget
import FiveStage.Proofs.Calls

/-!
# Machines that have stopped

A cycle that traps is counted and does nothing else, and a halted machine does
nothing at all. Whatever is asked of a stopped machine afterwards, in whatever
order, it stays as it is and gives the same answer each time. Of a machine that
traps the counter of cycles goes on, and a run gives up once it has reached the
limit.
-/

set_option autoImplicit false

namespace FiveStage

namespace Machine

inductive Call where
  | tick
  | run (limit : Count)

inductive Answer where
  | ticked (outcome : Except Stop Unit)
  | ran (outcome : Except Stop Word)

def call (m : Machine) : Call → Machine × Answer
  | .tick => (m.tick.machine, .ticked m.tick.outcome)
  | .run limit => ((m.run limit).machine, .ran (m.run limit).outcome)

def withCycles (m : Machine) (c : Count) : Machine :=
  { m with core := { m.core with stats := { m.core.stats with cycles := c } } }

end Machine

namespace Machine.Call

def halted (code : Word) : Call → Answer
  | tick => .ticked (.ok ())
  | run _ => .ran (.ok code)

/-- What a machine stuck at `e` answers when its counter shows `c`, and what its
counter shows then. -/
def stuck (e : Stop) (c : Count) : Call → Count × Answer
  | tick => (c + 1, .ticked (.error e))
  | run limit =>
    (if c < limit then c + 1 else c, .ran (.error (if c < limit then e else .cycleLimit limit)))

end Machine.Call

namespace Machine

theorem call_halted {m : Machine} {code : Word} (h : m.core.exitCode = some code) (c : Call) :
    m.call c = (m, c.halted code) := by
  cases c with
  | tick =>
    have hstays : m.tick = ⟨m, .ok (), []⟩ := tick_halted (Core.halted_some h)
    rw [call, hstays]
    rfl
  | run limit =>
    obtain ⟨ho, hm⟩ := runOn_halted h limit #[]
    rw [call, run, ho, hm]
    rfl

section Stuck
variable {m : Machine} {e : Stop}

/-- The error of a cycle is found in the last latch, and does not depend on the counter. -/
theorem tick_error (he : m.tick.outcome = .error e) :
    m.core.exitCode = none ∧ m.stopping e := by
  cases m.way with
  | rests _ _ stays =>
    rw [stays] at he
    cases he
  | fails running e' stopping outcome _ =>
    obtain rfl : e' = e := Except.error.inj (outcome.symm.trans he)
    exact ⟨running, stopping⟩
  | halts _ _ _ outcome _ | advances _ _ outcome _ => cases outcome.symm.trans he

theorem tick_stuck_error (hrun : m.core.exitCode = none) (h : m.stopping e) :
    m.tick.outcome = .error e ∧ m.tick.machine = m.withCycles (m.core.stats.cycles + 1) := by
  rw [tick_stopping hrun h]
  exact ⟨rfl, rfl⟩

theorem run_stuck (hrun : m.core.exitCode = none) (h : m.stopping e) (c limit : Count) :
    ((m.withCycles c).run limit).outcome =
        .error (if c < limit then e else .cycleLimit limit) ∧
      ((m.withCycles c).run limit).machine = m.withCycles (if c < limit then c + 1 else c) := by
  obtain ⟨ho, hm⟩ := tick_stuck_error (m := m.withCycles c) hrun h
  by_cases hlt : c < limit
  · rw [if_pos hlt, if_pos hlt]
    obtain ⟨hro, hrm⟩ := runOn_failed (m := m.withCycles c) #[] hrun hlt ho
    exact ⟨hro, hrm.trans hm⟩
  · rw [if_neg hlt, if_neg hlt]
    exact runOn_exhausted (m := m.withCycles c) #[] hrun (BitVec.not_lt.mp hlt)

theorem call_stuck (hrun : m.core.exitCode = none) (h : m.stopping e) (c : Count) (k : Call) :
    (m.withCycles c).call k = (m.withCycles (k.stuck e c).1, (k.stuck e c).2) := by
  cases k with
  | tick =>
    obtain ⟨ho, hm⟩ := tick_stuck_error (m := m.withCycles c) hrun h
    rw [call, ho, hm]
    rfl
  | run limit =>
    obtain ⟨ho, hm⟩ := run_stuck hrun h c limit
    rw [call, ho, hm]
    rfl

theorem calls_stuck (hrun : m.core.exitCode = none) (h : m.stopping e) (c : Count)
    (cs : List Call) : calls call (m.withCycles c) cs =
      (m.withCycles (calls (Call.stuck e) c cs).1, (calls (Call.stuck e) c cs).2) := by
  have hstep : ∀ n d k, n = m.withCycles d →
      (n.call k).1 = m.withCycles (k.stuck e d).1 ∧ (n.call k).2 = (k.stuck e d).2 := by
    rintro _ d k rfl
    rw [call_stuck hrun h]
    exact ⟨rfl, rfl⟩
  obtain ⟨hlast, hanswers⟩ := calls_related (fun n d => n = m.withCycles d) hstep rfl cs
  exact Prod.ext hlast hanswers

theorem le_calls_stuck (e : Stop) (c : Count) (cs : List Call)
    (room : c.toNat + cs.length < 2 ^ 64) :
    c ≤ (calls (Call.stuck e) c cs).1 := by
  induction cs generalizing c with
  | nil => exact BitVec.le_refl c
  | cons k cs ih =>
    rw [List.length_cons] at room
    have hnext : (c + 1).toNat = c.toNat + 1 := Count.toNat_succ (by omega)
    have hup : c ≤ c + 1 := by
      rw [BitVec.le_def, hnext]
      exact Nat.le_succ _
    have hcases : (k.stuck e c).1 = c + 1 ∨ (k.stuck e c).1 = c := by
      cases k with
      | tick => exact .inl rfl
      | run limit =>
        by_cases hlt : c < limit
        · exact .inl (if_pos hlt)
        · exact .inr (if_neg hlt)
    rw [calls]
    rcases hcases with hk | hk
    · rw [hk]
      exact BitVec.le_trans hup (ih (c + 1) (by omega))
    · rw [hk]
      exact ih c (by omega)

theorem cycleLimit_stays (hrun : m.core.exitCode = none) (h : m.stopping e)
    {c limit : Count} {later : List Call}
    (hlimit : ((m.withCycles c).run limit).outcome = .error (.cycleLimit limit))
    (room : c.toNat + later.length < 2 ^ 64) :
    ((calls call (m.withCycles c) later).1.run limit).outcome = .error (.cycleLimit limit) := by
  have hgiven : ¬c < limit := by
    intro hlt
    rw [(run_stuck hrun h c limit).1, if_pos hlt] at hlimit
    obtain rfl : e = .cycleLimit limit := Except.error.inj hlimit
    obtain ⟨-, ⟨t, -, he⟩ | ⟨-, -, -, he⟩⟩ := h <;> cases he
  have hlater : ¬(calls (Call.stuck e) c later).1 < limit :=
    BitVec.not_lt.mpr (BitVec.le_trans (BitVec.not_lt.mp hgiven) (le_calls_stuck e c later room))
  rw [calls_stuck hrun h, (run_stuck hrun h _ limit).1, if_neg hlater]

end Stuck

theorem tick_halts {m : Machine} {code : Word} (hrun : m.core.exitCode = none)
    (hcode : m.tick.machine.core.exitCode = some code) :
    m.tick.outcome = .ok () ∧ m.tick.machine = ⟨{ m.core with
      regs := m.core.writeback
      memWb := MemWb.bubble
      exitCode := some code
      stats := m.core.stats.cycle.retire m.core.memWb.ctrl }, m.ram⟩ := by
  cases m.way with
  | rests code' halted _ => cases hrun.symm.trans halted
  | fails _ _ _ _ machine =>
    rw [machine] at hcode
    cases hrun.symm.trans hcode
  | halts _ _ _ outcome machine =>
    rw [machine] at hcode ⊢
    rw [← hcode]
    exact ⟨outcome, rfl⟩
  | advances _ _ _ machine =>
    rw [machine] at hcode
    cases hrun.symm.trans hcode

theorem writeback_frame {c : Core} {r : Reg} (h : c.writeback.read r ≠ c.regs.read r) :
    c.memWb.ctrl.regWrite = true ∧ c.memWb.rd = r.toNat := by
  have hr : r ≠ 0 := by
    rintro rfl
    exact h ((Registers.read_zero _).trans (Registers.read_zero _).symm)
  unfold Core.writeback at h
  split at h
  · rename_i hw
    rw [Registers.read_write _ _ _ hr] at h
    split at h
    · rename_i hrd
      exact ⟨(Bool.and_eq_true_iff.mp hw).2, hrd⟩
    · exact absurd rfl h
  · exact absurd rfl h

/-- Whatever the latches hold. The answers of a stuck machine are told by its
counter alone, which is a number of 64 bits; a run that has given up does so
again until the counter overflows. -/
theorem stopped_frozen (m : Machine) :
    (∀ pc t, m.tick.outcome = .error (.trap pc t) →
      m.tick.machine = m.withCycles (m.core.stats.cycles + 1) ∧
      (∀ cs, calls call m.tick.machine cs =
        let seen := calls (Call.stuck (.trap pc t)) (m.core.stats.cycles + 1) cs
        (m.withCycles seen.1, seen.2)) ∧
      ∀ cs later limit, let reached := (calls call m.tick.machine cs).1
        (reached.run limit).outcome = .error (.cycleLimit limit) →
        reached.core.stats.cycles.toNat + later.length < 2 ^ 64 →
        ((calls call reached later).1.run limit).outcome = .error (.cycleLimit limit)) ∧
    ∀ code, m.core.exitCode = none → m.tick.machine.core.exitCode = some code →
      m.tick.outcome = .ok () ∧
      m.tick.machine = ⟨{ m.core with
        regs := m.core.writeback
        memWb := MemWb.bubble
        exitCode := some code
        stats := m.core.stats.cycle.retire m.core.memWb.ctrl }, m.ram⟩ ∧
      (∀ r, m.core.writeback.read r ≠ m.core.regs.read r →
        m.core.memWb.ctrl.regWrite = true ∧ m.core.memWb.rd = r.toNat) ∧
      m.tick.machine.core.stats.cycles = m.core.stats.cycles + 1 ∧
      m.tick.machine.core.stats.stalls = m.core.stats.stalls ∧
      m.tick.machine.core.stats.flushes = m.core.stats.flushes ∧
      ∀ cs, calls call m.tick.machine cs = (m.tick.machine, cs.map (Call.halted code)) := by
  refine ⟨fun pc t he => ?_, fun code hrun hcode => ?_⟩
  · obtain ⟨hrun, hstop⟩ := tick_error he
    obtain ⟨-, hm⟩ := tick_stuck_error hrun hstop
    refine ⟨hm, fun cs => hm ▸ calls_stuck hrun hstop _ cs, ?_⟩
    intro cs later limit reached hlimit room
    have hreached : reached = m.withCycles (calls (Call.stuck (.trap pc t))
        (m.core.stats.cycles + 1) cs).1 := by
      have h := calls_stuck hrun hstop (m.core.stats.cycles + 1) cs
      rw [← hm] at h
      exact congrArg Prod.fst h
    clear_value reached
    subst hreached
    exact cycleLimit_stays hrun hstop hlimit room
  · obtain ⟨ho, hm⟩ := tick_halts hrun hcode
    obtain ⟨hstalls, hflushes⟩ := Stats.retire_decisions m.core.stats.cycle m.core.memWb.ctrl
    refine ⟨ho, hm, fun r => writeback_frame, tick_cycles hrun, ?_, ?_,
      calls_fixed (call_halted hcode)⟩
    · rw [hm]
      exact hstalls
    · rw [hm]
      exact hflushes

/-- A store stands behind an access that has trapped. -/
def trapping : Machine :=
  { core :=
      { regs := Registers.initial
        pc := 0x1008
        exMem :=
          { valid := true
            pc := 0x1004
            inst := 0x00502023
            alu := 0x1000
            storeData := 7
            ctrl := { memWrite := true, width := .word } }
        memWb :=
          { valid := true
            pc := 0x1000
            inst := 0x00002283
            rd := 5
            ctrl := { regWrite := true, memRead := true, width := .word, signedLoad := true }
            trap := some (.loadAccessFault 0) } }
    ram := Memory.zeros 0x1000 16 }

/-- An `ebreak` in the last latch, behind an instruction that is not retired any more. -/
def halting : Machine :=
  { core :=
      { regs := Registers.initial.write 10 7
        pc := 0x1008
        exMem :=
          { valid := true
            pc := 0x1004
            inst := 0x00500513
            rd := 10
            alu := 5
            ctrl := { regWrite := true } }
        memWb :=
          { valid := true
            pc := 0x1000
            inst := Word.ebreak
            ctrl := { halt := true } } }
    ram := Memory.zeros 0x1000 16 }

theorem stopped_frozen_trapping_halting :
    (trapping.tick.outcome = .error (.trap 0x1000 (.loadAccessFault 0)) ∧
      calls call trapping.tick.machine [.run 3, .tick, .run 3] =
        (trapping.withCycles 3,
          [.ran (.error (.trap 0x1000 (.loadAccessFault 0))),
            .ticked (.error (.trap 0x1000 (.loadAccessFault 0))),
            .ran (.error (.cycleLimit 3))])) ∧
    halting.core.exitCode = none ∧ halting.tick.machine.core.exitCode = some 7 ∧
      calls call halting.tick.machine [.tick, .run 0, .run 3] =
        (halting.tick.machine, [.ticked (.ok ()), .ran (.ok 7), .ran (.ok 7)]) := by
  have ho : trapping.tick.outcome = .error (.trap 0x1000 (.loadAccessFault 0)) := rfl
  have hrun : halting.core.exitCode = none := rfl
  have hcode : halting.tick.machine.core.exitCode = some 7 := rfl
  obtain ⟨-, -, -, -, -, -, hanswers⟩ := (stopped_frozen halting).2 7 hrun hcode
  exact ⟨⟨ho, ((stopped_frozen trapping).1 _ _ ho).2.1 _⟩, hrun, hcode, hanswers _⟩

end Machine

end FiveStage
