import FiveStage.Proofs.Advance

/-!
# What the latches can hold

A latch may hold any entry, but a machine that began with four bubbles never
puts an arbitrary one there. Each stage hands on a bubble, a legal instruction
with the signals of its own word, or an instruction that will not be carried
out, with the reason. Every way in which a cycle can go keeps this up.
-/

set_option autoImplicit false

namespace FiveStage

def Trap.ofFetch (pc : Word) : Trap :=
  if pc.toNat % 4 ≠ 0 then .instructionAddressMisaligned pc else .instructionAccessFault pc

/-- Why the instruction of a slot is not carried out at all: it was not fetched,
and the idle word stands in its place, or its word is illegal. -/
def Slot.Refused (f : Slot) (t : Trap) : Prop :=
  f.inst = Word.nop ∧ t = Trap.ofFetch f.pc ∨
    t = .illegalInstruction f.inst ∧ (decode f.inst).control = .error t

/-- Why the memory stage did not carry out an access with signals `c` at `a`. -/
def Control.Faults (c : Control) (a : Word) (t : Trap) : Prop :=
  c.memRead = true ∧ (t = .loadAddressMisaligned a ∨ t = .loadAccessFault a) ∨
    c.memWrite = true ∧ (t = .storeAddressMisaligned a ∨ t = .storeAccessFault a)

structure Slot.Coherent (f : Slot) : Prop where
  empty : f.valid = false → f = bubble
  fault : ∀ t, f.valid = true → f.trap = some t → f.inst = Word.nop ∧ t = Trap.ofFetch f.pc

structure IdEx.Coherent (e : IdEx) : Prop where
  empty : e.valid = false → e = bubble
  legal : e.live = true → (decode e.inst).control = .ok e.ctrl ∧
    e.rd = (decode e.inst).rd.toNat ∧ e.rs1 = (decode e.inst).rs1.toNat ∧
    e.rs2 = (decode e.inst).rs2.toNat ∧ e.imm = (decode e.inst).imm
  fault : ∀ t, e.valid = true → e.trap = some t → e.ctrl = {} ∧ e.rd = 0 ∧ e.Refused t
  named : e.rs1 < 32 ∧ e.rs2 < 32 ∧ e.rd < 32

structure ExMem.Coherent (e : ExMem) : Prop where
  empty : e.valid = false → e = bubble
  legal : e.live = true → (decode e.inst).control = .ok e.ctrl ∧ e.rd = (decode e.inst).rd.toNat
  fault : ∀ t, e.valid = true → e.trap = some t → e.ctrl = {} ∧ e.rd = 0 ∧ e.Refused t
  named : e.rd < 32

structure MemWb.Coherent (e : MemWb) : Prop where
  empty : e.valid = false → e = bubble
  legal : e.live = true → (decode e.inst).control = .ok e.ctrl ∧ e.rd = (decode e.inst).rd.toNat
  fault : ∀ t, e.valid = true → e.trap = some t →
    e.ctrl = {} ∧ e.rd = 0 ∧ e.Refused t ∨
      (decode e.inst).control = .ok e.ctrl ∧ e.ctrl.Faults e.alu t
  named : e.rd < 32

structure Core.Coherent (c : Core) : Prop where
  ifId : c.ifId.Coherent
  idEx : c.idEx.Coherent
  exMem : c.exMem.Coherent
  memWb : c.memWb.Coherent
  zero : c.regs.read 0 = 0

structure Core.Empty (c : Core) : Prop where
  ifId : c.ifId = Slot.bubble
  idEx : c.idEx = IdEx.bubble
  exMem : c.exMem = ExMem.bubble
  memWb : c.memWb = MemWb.bubble

theorem Memory.fetch_error {ram : Memory} {pc : Word} {t : Trap} (h : ram.fetch pc = .error t) :
    t = Trap.ofFetch pc := by
  unfold fetch at h
  unfold Trap.ofFetch
  split at h
  · rename_i hmis
    rw [if_pos hmis]
    exact (Except.error.inj h).symm
  · rename_i hmis
    rw [if_neg hmis]
    split at h
    · exact absurd h nofun
    · exact (Except.error.inj h).symm

theorem Memory.access_faults {ram : Memory} {c : Control} {a v : Word} {t : Trap}
    (h : (ram.access c a v).2 = .error t) : c.Faults a t := by
  revert h
  unfold access
  cases hr : c.memRead with
  | true =>
    intro h
    simp only [if_true, load] at h
    refine .inl ⟨hr, ?_⟩
    split at h
    · exact absurd h nofun
    · split at h
      · exact .inl (Except.error.inj h).symm
      · split at h
        · exact absurd h nofun
        · exact .inr (Except.error.inj h).symm
  | false =>
    cases hw : c.memWrite with
    | false => exact nofun
    | true =>
      intro h
      simp only [Bool.false_eq_true, if_false, if_true, store] at h
      refine .inr ⟨hw, ?_⟩
      cases hs : ram.storeTrap? a c.width with
      | none => simp [hs] at h
      | some t' =>
        simp only [hs, Except.error.injEq] at h
        subst h
        unfold storeTrap? at hs
        split at hs
        · exact absurd hs nofun
        · split at hs
          · exact .inl (Option.some.inj hs).symm
          · split at hs
            · exact absurd hs nofun
            · exact .inr (Option.some.inj hs).symm

theorem Instruction.control_error {w : Word} {t : Trap} (h : (decode w).control = .error t) :
    t = .illegalInstruction w := by
  unfold control at h
  split at h
  · exact absurd h nofun
  · exact (Except.error.inj h).symm

theorem Slot.fetch_coherent (ram : Memory) (pc : Word) : (Slot.fetch ram pc).Coherent where
  empty h := absurd h (by simp [fetch_valid])
  fault t _ ht := by
    unfold Slot.fetch at ht ⊢
    split at ht
    · exact absurd ht nofun
    · rename_i t' hf
      obtain rfl := Option.some.inj ht
      exact ⟨rfl, Memory.fetch_error hf⟩

theorem Slot.coherent_bubble : bubble.Coherent := ⟨fun _ => rfl, fun _ h => absurd h nofun⟩

theorem IdEx.coherent_bubble : bubble.Coherent :=
  ⟨fun _ => rfl, nofun, fun _ h => absurd h nofun, by decide⟩

theorem ExMem.coherent_bubble : bubble.Coherent :=
  ⟨fun _ => rfl, nofun, fun _ h => absurd h nofun, by decide⟩

theorem MemWb.coherent_bubble : bubble.Coherent :=
  ⟨fun _ => rfl, nofun, fun _ h => absurd h nofun, by decide⟩

theorem Slot.Coherent.issue {f : Slot} (h : f.Coherent) (regs : Registers) (exMem : ExMem)
    (memWb : MemWb) : (Issue.ofSlot f regs exMem memWb).entry.Coherent := by
  cases hv : f.valid with
  | false =>
    rw [Issue.ofSlot_empty _ _ _ hv]
    exact IdEx.coherent_bubble
  | true =>
    rcases f.legal_or_fault hv with ⟨hl, c, hc⟩ | ⟨t, ht, hi⟩
    · rw [Issue.ofSlot_legal _ _ _ hl hc]
      have hrd : (if c.regWrite then (decode f.inst).rd.toNat else 0) = (decode f.inst).rd.toNat :=
        Instruction.control_rd hc
      exact {
        empty := nofun
        legal := fun _ => ⟨Instruction.control_ok_iff.mpr hc, hrd, rfl, rfl, rfl⟩
        fault := fun _ _ => nofun
        named := ⟨(decode f.inst).rs1.isLt, (decode f.inst).rs2.isLt,
          Nat.lt_of_le_of_lt (Nat.le_of_eq hrd) (decode f.inst).rd.isLt⟩ }
    · rw [hi]
      refine ⟨nofun, nofun, fun t' _ ht' => ⟨rfl, rfl, ?_⟩, by simp [Issue.trapped]⟩
      obtain rfl : t = t' := Option.some.inj ht'
      rcases ht with ht | ⟨-, ht⟩
      · exact .inl (h.fault t hv ht)
      · exact .inr ⟨Instruction.control_error ht, ht⟩

theorem IdEx.Coherent.execute {e : IdEx} (h : e.Coherent) (exMem : ExMem) (memWb : MemWb) :
    (e.execute exMem memWb).Coherent := by
  cases hv : e.valid with
  | false =>
    have he : e.execute exMem memWb = ExMem.bubble := if_neg (by simp [hv])
    rw [he]
    exact ExMem.coherent_bubble
  | true =>
    cases ht : e.trap with
    | some t =>
      obtain ⟨hctrl, -, hr⟩ := h.fault t hv ht
      have he : e.execute exMem memWb =
          { valid := true, pc := e.pc, inst := e.inst, trap := some t } := by
        simp [IdEx.execute, hv, ht, hctrl]
      rw [he]
      constructor
      · intro hv'
        cases hv'
      · intro hl
        cases hl
      · intro t' _ ht'
        obtain rfl : t = t' := Option.some.inj ht'
        exact ⟨rfl, rfl, hr⟩
      · exact Nat.zero_lt_succ _
    | none =>
      obtain ⟨hctrl, hrd, -⟩ := h.legal (Slot.live_iff.mpr ⟨hv, ht⟩)
      unfold IdEx.execute
      rw [if_pos hv, ht]
      constructor
      · intro hv'
        cases hv'
      · intro _
        exact ⟨hctrl, hrd⟩
      · intro t _ ht'
        cases ht'
      · exact h.named.2.2

theorem ExMem.Coherent.access {e : ExMem} (h : e.Coherent) (ram : Memory) :
    (e.access ram).2.Coherent := by
  cases hl : e.live with
  | true =>
    obtain ⟨hv, ht⟩ := Slot.live_iff.mp hl
    have hlegal := h.legal hl
    have hfault : ∀ t, (ram.access e.ctrl e.alu e.storeData).2 = .error t →
        e.ctrl.Faults e.alu t := fun t => Memory.access_faults
    rw [access_live e ram hl]
    split
    · exact ⟨fun hv' => absurd hv (Bool.eq_false_iff.mp hv'), fun _ => hlegal,
        fun t _ ht' => absurd (ht.symm.trans ht') (Option.some_ne_none t).symm, h.named⟩
    · rename_i t hacc
      refine ⟨fun hv' => absurd hv (Bool.eq_false_iff.mp hv'), fun _ => hlegal, fun t' _ ht' => ?_,
        h.named⟩
      obtain rfl : t = t' := Option.some.inj ht'
      exact .inr ⟨hlegal.1, hfault t (by rw [hacc])⟩
  | false =>
    cases hv : e.valid with
    | false =>
      have he : e.access ram = (ram, MemWb.bubble) := if_pos (by simp [hv])
      rw [he]
      exact MemWb.coherent_bubble
    | true =>
      have ht : e.trap.isSome = true := by
        cases ht : e.trap with
        | none => simp [Slot.live, hv, ht] at hl
        | some t => rfl
      have he : e.access ram = (ram, e.passed) := (if_neg (by simp [hv])).trans (if_pos ht)
      rw [he]
      exact ⟨fun hv' => absurd hv (Bool.eq_false_iff.mp hv'),
        fun hl' => absurd hl' (Bool.eq_false_iff.mp hl),
        fun t hv' ht' => .inl (h.fault t hv' ht'), h.named⟩

theorem MemWb.Coherent.halts {e : MemWb} (h : e.Coherent) (hl : e.live = true)
    (hh : e.ctrl.halt = true) : e.ctrl.regWrite = false :=
  (Instruction.control_halt (Instruction.control_ok_iff.mp (h.legal hl).1) hh).1

namespace Machine

/-- Whether the coming cycle takes every instruction on its way one stage further. -/
def advances (m : Machine) : Bool :=
  !m.core.halted && (!m.core.memWb.valid || m.core.memWb.trap.isNone && !m.core.memWb.ctrl.halt)

inductive Turn (m : Machine) : Prop where
  | rests (stuck : m.advances = false) (halted : m.core.halted = true)
      (stays : m.tick = ⟨m, .ok (), []⟩)
  | traps (stuck : m.advances = false) (running : m.core.exitCode = none) (t : Trap)
      (valid : m.core.memWb.valid = true) (trap : m.core.memWb.trap = some t)
      (outcome : m.tick.outcome = .error (.trap m.core.memWb.pc t))
      (machine : m.tick.machine = ⟨{ m.core with stats := m.core.stats.cycle }, m.ram⟩)
  | halts (stuck : m.advances = false) (running : m.core.exitCode = none)
      (live : m.core.memWb.live = true) (halt : m.core.memWb.ctrl.halt = true)
      (outcome : m.tick.outcome = .ok ())
      (machine : m.tick.machine = ⟨{ m.core with
        memWb := {}
        exitCode := some (m.core.regs.read Reg.a0)
        stats := m.core.stats.cycle.retire m.core.memWb.ctrl }, m.ram⟩)
  | advances (goes : m.advances = true) (running : m.core.exitCode = none)
      (passes : m.core.memWb.Passes) (outcome : m.tick.outcome = .ok ())
      (machine : m.tick.machine = ⟨m.core.next m.ram, (m.core.exMem.access m.ram).1⟩)

theorem turn {m : Machine} (h : m.core.memWb.Coherent) : m.Turn := by
  cases m.way with
  | rests code halted stays =>
    have hh : m.core.halted = true := Core.halted_some halted
    exact .rests (by simp [advances, hh]) hh stays
  | fails running e stopping outcome machine =>
    obtain ⟨hv, ⟨t, ht, rfl⟩ | ⟨-, -, hr, -⟩⟩ := stopping
    · exact .traps (by simp [advances, hv, ht]) running t hv ht outcome machine
    · exact absurd h.named hr
  | halts running live halt outcome machine =>
    have hv := (Slot.live_iff.mp live).1
    have hregs : m.core.writeback = m.core.regs := if_neg (by simp [h.halts live halt])
    rw [hregs] at machine
    exact .halts (by simp [advances, hv, halt]) running live halt outcome machine
  | advances running passes outcome machine =>
    have hgo : m.advances = true := by
      unfold advances Core.halted
      rw [running]
      cases hv : m.core.memWb.valid with
      | false => rfl
      | true => simp [(passes hv).1, (passes hv).2.1]
    exact .advances hgo running passes outcome machine

end Machine

namespace Core.Coherent

theorem next {c : Core} (h : c.Coherent) (ram : Memory) : (c.next ram).Coherent where
  ifId := by
    simp only [Core.next]
    cases c.decided with
    | flush => exact Slot.coherent_bubble
    | stall => exact h.ifId
    | noAction => exact Slot.fetch_coherent _ _
  idEx := by
    simp only [Core.next]
    split
    · exact IdEx.coherent_bubble
    · exact h.ifId.issue _ _ _
  exMem := h.idEx.execute _ _
  memWb := h.exMem.access _
  zero := Registers.read_zero _

theorem tick {m : Machine} (h : m.core.Coherent) : m.tick.machine.core.Coherent := by
  cases Machine.turn h.memWb with
  | rests _ _ stays => rwa [stays]
  | traps _ _ _ _ _ _ machine =>
    rw [machine]
    exact ⟨h.ifId, h.idEx, h.exMem, h.memWb, h.zero⟩
  | halts _ _ _ _ _ machine =>
    rw [machine]
    exact ⟨h.ifId, h.idEx, h.exMem, MemWb.coherent_bubble, h.zero⟩
  | advances _ _ _ _ machine =>
    rw [machine]
    exact h.next _

end Core.Coherent

namespace Machine

/-- The machine after a number of cycles, whether they succeed or not. -/
def ticks (m : Machine) : Nat → Machine
  | 0 => m
  | t + 1 => (m.ticks t).tick.machine

theorem after_ticks {m m' : Machine} {t : Nat} (h : m.after? t = some m') : m' = m.ticks t := by
  induction t generalizing m' with
  | zero => exact (Option.some.inj h).symm
  | succ t ih =>
    obtain ⟨m₁, h₁, -, rfl⟩ := after_pred h
    rw [ih h₁, ticks]

end Machine

theorem Core.Empty.coherent {c : Core} (h : c.Empty) : c.Coherent where
  ifId := h.ifId ▸ Slot.coherent_bubble
  idEx := h.idEx ▸ IdEx.coherent_bubble
  exMem := h.exMem ▸ ExMem.coherent_bubble
  memWb := h.memWb ▸ MemWb.coherent_bubble
  zero := Registers.read_zero _

theorem Core.Coherent.ticks {m : Machine} (h : m.core.Coherent) (t : Nat) :
    (m.ticks t).core.Coherent := by
  induction t with
  | zero => exact h
  | succ t ih => exact ih.tick

/-- From four bubbles, whatever the registers, the pc and the memory hold, and
whatever becomes of the cycles. Every register that a latch names exists, so
that no cycle ends for want of one. -/
theorem latches_coherent (m : Machine) (h : m.core.Empty) (t : Nat) :
    (m.ticks t).core.Coherent ∧ ∀ r, (m.ticks t).tick.outcome ≠ .error (.noRegister r) := by
  have hc := h.coherent.ticks t
  refine ⟨hc, fun r hr => ?_⟩
  cases Machine.turn hc.memWb with
  | rests _ _ stays => exact absurd ((congrArg Tick.outcome stays).symm.trans hr) nofun
  | traps _ _ _ _ _ outcome _ => exact absurd (outcome.symm.trans hr) nofun
  | halts _ _ _ _ outcome _ => exact absurd (outcome.symm.trans hr) nofun
  | advances _ _ _ outcome _ => exact absurd (outcome.symm.trans hr) nofun

/-- A program that stores over the second instruction behind the store. -/
def Machine.patching : Machine :=
  { core := { regs := Registers.initial, pc := 0x1000 }
    ram := (Memory.zeros 0x1000 36).write 0x1000 (Word.image
      [0x00000317, 0x02032283, 0x00532823, 0x00700513, 0x02a00513, 0x00100073, 0, 0, 0x00100073]) }

theorem latches_coherent_patching :
    Machine.patching.core.Empty ∧ (Machine.patching.ticks 7).core.memWb.live = true ∧
      (decode (Machine.patching.ticks 7).core.memWb.inst).control =
        .ok (Machine.patching.ticks 7).core.memWb.ctrl := by
  have hl : (Machine.patching.ticks 7).core.memWb.live = true := by decide +kernel
  have h : Machine.patching.core.Empty := ⟨rfl, rfl, rfl, rfl⟩
  exact ⟨h, hl, ((latches_coherent _ h 7).1.memWb.legal hl).1⟩

end FiveStage
