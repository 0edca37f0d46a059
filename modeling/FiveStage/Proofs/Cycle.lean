import FiveStage.Machine.Tick

/-!
# What one cycle does

A running machine whose last latch neither traps nor halts always ends its
cycle in one known state; in every other case nothing but the cycle counter,
and the halting instruction itself, is carried out. Later proofs use these
equations and never open the cycle again.
-/

set_option autoImplicit false

namespace FiveStage

def MemWb.Passes (e : MemWb) : Prop :=
  e.valid = true → e.trap = none ∧ e.ctrl.halt = false ∧ (e.ctrl.regWrite = true → e.rd < 32)

theorem Stats.retire_retired (s : Stats) (c : Control) :
    (s.retire c).retired = s.retired + 1 := by
  unfold Stats.retire
  repeat' split
  all_goals rfl

namespace Core

/-- The register file that decode reads: writeback goes first in a cycle. -/
def writeback (c : Core) : Registers :=
  if c.memWb.valid && c.memWb.ctrl.regWrite then c.regs.write c.memWb.rd c.memWb.result
  else c.regs

def decoded (c : Core) : Issue :=
  Issue.ofSlot c.ifId c.writeback c.exMem c.memWb

def decided (c : Core) : Decision :=
  (c.hazard c.decoded).decision

def retirement (c : Core) (s : Stats) : Stats :=
  if c.memWb.valid then s.retire c.memWb.ctrl else s

def next (c : Core) (ram : Memory) : Core :=
  { c with
    regs := c.writeback
    pc := match c.decided with
      | .flush => c.decoded.target
      | .stall => c.pc
      | .noAction => c.pc + Word.instructionSize
    ifId := match c.decided with
      | .flush => {}
      | .stall => c.ifId
      | .noAction => Slot.fetch (c.exMem.access ram).1 c.pc
    idEx := if c.decided = .stall then {} else c.decoded.entry
    exMem := c.executed
    memWb := (c.exMem.access ram).2
    lastDecision := c.decided
    stats := c.decided.count (c.retirement c.stats.cycle) }

theorem next_cycles (c : Core) (ram : Memory) :
    (c.next ram).stats.cycles = c.stats.cycles + 1 := by
  have h : (c.retirement c.stats.cycle).cycles = c.stats.cycles + 1 := by
    unfold retirement
    split
    · rw [Stats.retire_cycles]
      rfl
    · rfl
  simp only [next]
  cases c.decided <;> exact h

theorem next_retired (c : Core) (ram : Memory) :
    (c.next ram).stats.retired = c.stats.retired + .ofNat 64 c.memWb.valid.toNat := by
  have h : (c.retirement c.stats.cycle).retired =
      c.stats.retired + .ofNat 64 c.memWb.valid.toNat := by
    unfold retirement
    cases c.memWb.valid with
    | false => exact (BitVec.add_zero _).symm
    | true => exact Stats.retire_retired _ _
  simp only [next]
  cases c.decided <;> exact h

theorem written_some {c : Core} (hv : c.memWb.valid = true)
    (hr : c.memWb.ctrl.regWrite = true → c.memWb.rd < 32) : c.written? = some c.writeback := by
  cases hw : c.memWb.ctrl.regWrite with
  | false => simp [written?, writeback, hw]
  | true => simp [written?, writeback, Registers.write?, hv, hw, hr hw]

def cycled (c : Core) : Core :=
  { c with stats := c.stats.cycle }

def retiring (c : Core) : List Event :=
  if c.memWb.valid then [.retire c.memWb.pc c.memWb.inst] else []

def steering (c : Core) : List Event :=
  c.cycled.decisionEvents (c.hazard c.decoded) c.decoded.target c.decided

theorem advance_next (c : Core) (ram : Memory) :
    { c with regs := c.writeback, stats := c.retirement c.stats.cycle }.advance ram =
      (⟨c.next ram, (c.exMem.access ram).1⟩, c.steering) := by
  have hi : ({ c with regs := c.writeback, stats := c.retirement c.stats.cycle } : Core).issue =
      c.decoded := rfl
  have hd : (({ c with regs := c.writeback, stats := c.retirement c.stats.cycle } : Core).hazard
      c.decoded).decision = c.decided := rfl
  have hcycles : (c.retirement c.stats.cycle).cycles = c.stats.cycle.cycles := by
    unfold retirement
    split
    · exact Stats.retire_cycles _ _
    · rfl
  unfold advance
  simp only [hi, hd, latch, next, steering]
  cases c.decided <;> simp only [decisionEvents, hcycles] <;> rfl

end Core

namespace Machine

def stopping (m : Machine) (e : Stop) : Prop :=
  m.core.memWb.valid = true ∧
    ((∃ t, m.core.memWb.trap = some t ∧ e = .trap m.core.memWb.pc t) ∨
      m.core.memWb.trap = none ∧ m.core.memWb.ctrl.regWrite = true ∧ ¬m.core.memWb.rd < 32 ∧
        e = .noRegister m.core.memWb.rd)

theorem tick_halted {m : Machine} (h : m.core.halted = true) : m.tick = ⟨m, .ok (), []⟩ := by
  obtain ⟨core, ram⟩ := m
  simp only at h
  simp [tick, h]

theorem tick_passing {m : Machine} (hrun : m.core.exitCode = none) (hp : m.core.memWb.Passes) :
    m.tick = ⟨⟨m.core.next m.ram, (m.core.exMem.access m.ram).1⟩, .ok (),
      m.core.cycled.viewEvents ++ (if m.core.trace then m.core.retiring else []) ++
        m.core.steering⟩ := by
  obtain ⟨core, ram⟩ := m
  simp only at hrun hp
  have hh : core.halted = false := Core.halted_none hrun
  have hadvance := core.advance_next ram
  cases hv : core.memWb.valid with
  | false =>
    simp only [Core.writeback, Core.retirement, hv, Bool.false_and, Bool.false_eq_true,
      if_false] at hadvance
    simp [tick, hh, Core.commit, hv, Core.cycled, Core.retiring, hadvance]
  | true =>
    obtain ⟨ht, hhalt, hr⟩ := hp hv
    have hw : ({ core with stats := core.stats.cycle } : Core).written? = some core.writeback :=
      Core.written_some hv hr
    simp only [Core.retirement, hv, if_true] at hadvance
    simp [tick, hh, Core.commit, hv, ht, hhalt, hw, Core.cycled, Core.retiring, hadvance]

theorem tick_ending {m : Machine} (hrun : m.core.exitCode = none)
    (hv : m.core.memWb.valid = true) (ht : m.core.memWb.trap = none)
    (hhalt : m.core.memWb.ctrl.halt = true)
    (hr : m.core.memWb.ctrl.regWrite = true → m.core.memWb.rd < 32) :
    m.tick = ⟨⟨{ m.core with
        regs := m.core.writeback
        memWb := {}
        exitCode := some (m.core.writeback.read Reg.a0)
        stats := m.core.stats.cycle.retire m.core.memWb.ctrl }, m.ram⟩, .ok (),
      m.core.cycled.viewEvents ++ (if m.core.trace then m.core.retiring else []) ++
        [.halt m.core.cycled.stats.cycles m.core.memWb.pc (m.core.writeback.read Reg.a0)]⟩ := by
  obtain ⟨core, ram⟩ := m
  simp only at hrun hv ht hhalt hr
  have hh : core.halted = false := Core.halted_none hrun
  have hw : ({ core with stats := core.stats.cycle } : Core).written? = some core.writeback :=
    Core.written_some hv hr
  simp [tick, hh, Core.commit, hv, ht, hhalt, hw, Core.cycled, Core.retiring]

theorem tick_halting {m : Machine} (hrun : m.core.exitCode = none)
    (hv : m.core.memWb.valid = true) (ht : m.core.memWb.trap = none)
    (hhalt : m.core.memWb.ctrl.halt = true) (hw : m.core.memWb.ctrl.regWrite = false) :
    m.tick.outcome = .ok () ∧
      m.tick.machine = ⟨{ m.core with
        memWb := {}
        exitCode := some (m.core.regs.read Reg.a0)
        stats := m.core.stats.cycle.retire m.core.memWb.ctrl }, m.ram⟩ := by
  have hregs : m.core.writeback = m.core.regs := if_neg (by simp [hw])
  rw [tick_ending hrun hv ht hhalt fun h => absurd h (Bool.eq_false_iff.mp hw), hregs]
  exact ⟨rfl, rfl⟩

theorem tick_stopping {m : Machine} {e : Stop} (hrun : m.core.exitCode = none)
    (h : m.stopping e) :
    m.tick = ⟨⟨m.core.cycled, m.ram⟩, .error e, m.core.cycled.viewEvents⟩ := by
  obtain ⟨core, ram⟩ := m
  have hh : core.halted = false := Core.halted_none hrun
  obtain ⟨hv, ⟨t, ht, rfl⟩ | ⟨ht, hw, hr, rfl⟩⟩ := h
  · simp only at hv ht
    simp [tick, hh, Core.commit, hv, ht, Core.cycled]
  · simp only at hv ht hw hr
    simp [tick, hh, Core.commit, hv, ht, Core.written?, hw, Registers.write?, hr, Core.cycled]

/-- The ways in which a cycle can go, whatever the latches hold. -/
inductive Way (m : Machine) : Prop where
  | rests (code : Word) (halted : m.core.exitCode = some code) (stays : m.tick = ⟨m, .ok (), []⟩)
  | fails (running : m.core.exitCode = none) (e : Stop) (stopping : m.stopping e)
      (outcome : m.tick.outcome = .error e)
      (machine : m.tick.machine = ⟨{ m.core with stats := m.core.stats.cycle }, m.ram⟩)
  | halts (running : m.core.exitCode = none) (live : m.core.memWb.live = true)
      (halt : m.core.memWb.ctrl.halt = true) (outcome : m.tick.outcome = .ok ())
      (machine : m.tick.machine = ⟨{ m.core with
        regs := m.core.writeback
        memWb := {}
        exitCode := some (m.core.writeback.read Reg.a0)
        stats := m.core.stats.cycle.retire m.core.memWb.ctrl }, m.ram⟩)
  | advances (running : m.core.exitCode = none) (passes : m.core.memWb.Passes)
      (outcome : m.tick.outcome = .ok ())
      (machine : m.tick.machine = ⟨m.core.next m.ram, (m.core.exMem.access m.ram).1⟩)

theorem way (m : Machine) : m.Way := by
  cases hx : m.core.exitCode with
  | some code => exact .rests code hx (tick_halted (Core.halted_some hx))
  | none =>
    have hpass (hp : m.core.memWb.Passes) : m.Way :=
      .advances hx hp (by rw [tick_passing hx hp]) (by rw [tick_passing hx hp])
    have hfail (e : Stop) (h : m.stopping e) : m.Way :=
      .fails hx e h (by rw [tick_stopping hx h]) (by rw [tick_stopping hx h]; rfl)
    cases hv : m.core.memWb.valid with
    | false => exact hpass fun hv' => absurd hv' (Bool.eq_false_iff.mp hv)
    | true =>
      cases ht : m.core.memWb.trap with
      | some t => exact hfail _ ⟨hv, .inl ⟨t, ht, rfl⟩⟩
      | none =>
        by_cases hr : m.core.memWb.ctrl.regWrite = true → m.core.memWb.rd < 32
        · cases hh : m.core.memWb.ctrl.halt with
          | false => exact hpass fun _ => ⟨ht, hh, hr⟩
          | true =>
            have htick := tick_ending hx hv ht hh hr
            exact .halts hx (by simp [Slot.live, hv, ht]) hh (by rw [htick]) (by rw [htick])
        · obtain ⟨hw, hr⟩ := Classical.not_imp.mp hr
          exact hfail _ ⟨hv, .inr ⟨ht, hw, hr, rfl⟩⟩

/-- The machine after a number of cycles, if all of them succeed. -/
def after? (m : Machine) : Nat → Option Machine
  | 0 => some m
  | t + 1 =>
    match m.after? t with
    | none => none
    | some m' =>
      match m'.tick.outcome with
      | .ok () => some m'.tick.machine
      | .error _ => none

def retires (m : Machine) : Bool :=
  !m.core.halted && m.core.memWb.live

section Retires
variable {m : Machine}

theorem retires_passing (hrun : m.core.exitCode = none) (hp : m.core.memWb.Passes) :
    m.retires = m.core.memWb.valid := by
  unfold retires Core.halted Slot.live
  rw [hrun]
  cases hv : m.core.memWb.valid with
  | false => rfl
  | true => simp [(hp hv).1]

theorem retires_halting (hrun : m.core.exitCode = none) (hl : m.core.memWb.live = true) :
    m.retires = true := by
  simp [retires, Core.halted, hrun, hl]

theorem retires_trapping {t : Trap} (ht : m.core.memWb.trap = some t) : m.retires = false := by
  simp [retires, Slot.live, ht]

theorem retires_halted (h : m.core.halted = true) : m.retires = false := by
  simp [retires, h]

end Retires

def retirements (m : Machine) : Nat → Nat
  | 0 => 0
  | t + 1 =>
    match m.after? t with
    | none => m.retirements t
    | some m' => if m'.retires then m.retirements t + 1 else m.retirements t

theorem after_succ {m m' : Machine} {t : Nat} (h : m.after? t = some m')
    (ho : m'.tick.outcome = .ok ()) : m.after? (t + 1) = some m'.tick.machine := by
  simp [after?, h, ho]

theorem after_pred {m m' : Machine} {t : Nat} (h : m.after? (t + 1) = some m') :
    ∃ m₁, m.after? t = some m₁ ∧ m₁.tick.outcome = .ok () ∧ m' = m₁.tick.machine := by
  rw [after?] at h
  cases ht : m.after? t with
  | none => simp [ht] at h
  | some m₁ =>
    simp only [ht] at h
    cases ho : m₁.tick.outcome with
    | error e => simp [ho] at h
    | ok u =>
      simp only [ho, Option.some.injEq] at h
      exact ⟨m₁, rfl, ho, h.symm⟩

theorem retirements_succ {m m' : Machine} {t : Nat} (h : m.after? t = some m') :
    m.retirements (t + 1) = if m'.retires then m.retirements t + 1 else m.retirements t := by
  simp [retirements, h]

end Machine

end FiveStage
