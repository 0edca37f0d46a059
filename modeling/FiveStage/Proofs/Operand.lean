import FiveStage.Proofs.Cycle
import FiveStage.Proofs.Legal

/-!
# The operand a program expects

Up to three instructions in flight may be about to write the same register.
The architectural value is that of the youngest of them, or what the register
file holds if there is none. Decode and execute look for it in different
latches; the hazard unit holds an instruction back exactly while neither can
find it.
-/

set_option autoImplicit false

namespace FiveStage

theorem Slot.live_iff {f : Slot} : f.live = true ↔ f.valid = true ∧ f.trap = none := by
  rw [live, Bool.and_eq_true, Option.isNone_iff_eq_none]

theorem Issue.ofSlot_legal {f : Slot} {c : Control} (regs : Registers) (exMem : ExMem)
    (memWb : MemWb) (hl : f.live = true) (hc : (decode f.inst).control? = some c) :
    ofSlot f regs exMem memWb = ofLegal f.pc f.inst (decode f.inst) c
      (operand regs exMem memWb (decode f.inst).rs1)
      (operand regs exMem memWb (decode f.inst).rs2) := by
  obtain ⟨hv, ht⟩ := Slot.live_iff.mp hl
  rw [ofSlot, if_pos hv]
  simp only [ht, Instruction.control_ok_iff.mpr hc]

def IdEx.produces (e : IdEx) (r : Reg) : Bool :=
  e.live && e.ctrl.regWrite && e.rd == r.toNat

def ExMem.produces (e : ExMem) (r : Reg) : Bool :=
  e.live && e.ctrl.regWrite && e.rd == r.toNat

def MemWb.produces (e : MemWb) (r : Reg) : Bool :=
  e.live && e.ctrl.regWrite && e.rd == r.toNat

theorem IdEx.live_of_produces {e : IdEx} {r : Reg} (h : e.produces r = true) : e.live = true :=
  (Bool.and_eq_true_iff.mp (Bool.and_eq_true_iff.mp h).1).1

theorem ExMem.live_of_produces {e : ExMem} {r : Reg} (h : e.produces r = true) : e.live = true :=
  (Bool.and_eq_true_iff.mp (Bool.and_eq_true_iff.mp h).1).1

def ExMem.value (e : ExMem) (ram : Memory) : Word :=
  if e.ctrl.memRead then
    match ram.load e.alu e.ctrl.width e.ctrl.signedLoad with
    | .ok v => v
    | .error _ => 0
  else e.alu

/-- The value of a register as the program in decode has to see it. -/
def Machine.architectural (m : Machine) (r : Reg) : Word :=
  if m.core.idEx.produces r then m.core.executed.alu
  else if m.core.exMem.produces r then m.core.exMem.value m.ram
  else if m.core.memWb.produces r then m.core.memWb.result
  else m.core.regs.read r

def Core.decodeOperand (c : Core) (r : Reg) : Word :=
  Issue.operand c.writeback c.exMem c.memWb r

/-- Whether the youngest producer of a register cannot yet hand its value on. A
transfer (`early`) needs the value in decode, any other instruction in execute. -/
def Core.awaits (c : Core) (early : Bool) (r : Reg) : Bool :=
  if c.idEx.produces r then early || c.idEx.ctrl.memRead
  else c.exMem.produces r && c.exMem.ctrl.memRead && early

theorem Core.awaits_late {c : Core} {early : Bool} {r : Reg} (h : c.awaits early r = false) :
    c.awaits false r = false := by
  unfold awaits at h ⊢
  split at h <;> simp_all

theorem Memory.access_error {m : Memory} {c : Control} {a v : Word} {t : Trap}
    (h : (m.access c a v).2 = .error t) : (m.access c a v).1 = m := by
  revert h
  unfold access store
  cases c.memRead with
  | true => exact fun _ => rfl
  | false =>
    cases c.memWrite with
    | false => exact fun _ => rfl
    | true =>
      cases m.storeTrap? a c.width with
      | some t' => exact fun _ => rfl
      | none => exact nofun

namespace ExMem

theorem forwards_iff (e : ExMem) {r : Reg} (hr : r ≠ 0) :
    e.forwardsTo r.toNat = (e.produces r && !e.ctrl.memRead) := by
  have h0 := Reg.toNat_ne_zero hr
  by_cases hd : e.rd = r.toNat
  · simp [forwardsTo, produces, hd, h0]
  · simp [forwardsTo, produces, beq_eq_false_iff_ne.mpr hd]

theorem forwards_zero (e : ExMem) : e.forwardsTo 0 = false := by
  cases h : e.rd <;> simp [forwardsTo, h]

theorem access_valid (e : ExMem) (ram : Memory) : (e.access ram).2.valid = e.valid := by
  unfold access passed
  split
  · simp_all
  · split
    · rfl
    · split <;> rfl

theorem access_dead (e : ExMem) (ram : Memory) (h : e.live = false) :
    (e.access ram).2.live = false ∧ (e.access ram).1 = ram := by
  unfold access
  split
  · exact ⟨rfl, rfl⟩
  · rename_i hv
    have ht : e.trap.isSome = true := by
      simp only [Slot.live] at h
      cases ht : e.trap <;> simp_all
    rw [if_pos ht]
    exact ⟨h, rfl⟩

theorem access_live (e : ExMem) (ram : Memory) (h : e.live = true) :
    e.access ram = match ram.access e.ctrl e.alu e.storeData with
      | (ram', .ok v) => (ram', { e.passed with loadData := v })
      | (ram', .error t) => (ram', { e.passed with trap := some t }) := by
  obtain ⟨hvalid, htrap⟩ := Slot.live_iff.mp h
  have hv : ¬(!e.valid) = true := by simp [hvalid]
  have ht : ¬e.trap.isSome = true := by simp [htrap]
  exact (if_neg hv).trans (if_neg ht)

theorem access_ctrl (e : ExMem) (ram : Memory) (h : e.live = true) :
    (e.access ram).2.ctrl = e.ctrl ∧ (e.access ram).2.rd = e.rd := by
  rw [access_live e ram h]
  split <;> exact ⟨rfl, rfl⟩

theorem access_pc (e : ExMem) (ram : Memory) (h : e.valid = true) :
    (e.access ram).2.pc = e.pc := by
  unfold access
  rw [if_neg (by simp [h])]
  split
  · rfl
  · split <;> rfl

theorem access_fault (e : ExMem) (ram : Memory) {t : Trap}
    (ht : (e.access ram).2.trap = some t) : (e.access ram).1 = ram := by
  cases hl : e.live with
  | false => exact (access_dead e ram hl).2
  | true =>
    have hp : e.passed.trap = none := (Slot.live_iff.mp hl).2
    have hr : (e.access ram).1 = (ram.access e.ctrl e.alu e.storeData).1 := by
      rw [access_live e ram hl]
      split <;> simp_all
    rw [hr]
    cases hv : (ram.access e.ctrl e.alu e.storeData).2 with
    | error t' => exact Memory.access_error hv
    | ok v =>
      have hpair : ram.access e.ctrl e.alu e.storeData
          = ((ram.access e.ctrl e.alu e.storeData).1, .ok v) := Prod.ext rfl hv
      rw [access_live e ram hl, hpair] at ht
      exact absurd (hp.symm.trans ht) nofun

theorem access_result (e : ExMem) (ram : Memory) (h : e.live = true)
    (ht : (e.access ram).2.trap = none) : (e.access ram).2.result = e.value ram := by
  rw [access_live e ram h] at ht ⊢
  unfold Memory.access at ht ⊢
  unfold MemWb.result value
  cases hr : e.ctrl.memRead with
  | false =>
    simp only [hr, Bool.false_eq_true, if_false] at ht ⊢
    split <;> simp [passed, hr]
  | true =>
    simp only [hr, if_true] at ht ⊢
    cases hl : ram.load e.alu e.ctrl.width e.ctrl.signedLoad with
    | ok v => simp [passed, hr]
    | error t => simp [hl] at ht

end ExMem

theorem MemWb.forwards_iff (e : MemWb) {r : Reg} (hr : r ≠ 0) :
    e.forwardsTo r.toNat = e.produces r := by
  have h0 := Reg.toNat_ne_zero hr
  by_cases hd : e.rd = r.toNat
  · simp [forwardsTo, produces, hd, h0]
  · simp [forwardsTo, produces, beq_eq_false_iff_ne.mpr hd]

theorem MemWb.forwards_zero (e : MemWb) : e.forwardsTo 0 = false := by
  cases h : e.rd <;> simp [forwardsTo, h]

theorem ExMem.access_produces (e : ExMem) (ram : Memory) (r : Reg)
    (hf : e.produces r = true → (e.access ram).2.trap = none) :
    (e.access ram).2.produces r = e.produces r := by
  cases hl : e.live with
  | false => simp [MemWb.produces, produces, hl, (access_dead e ram hl).1]
  | true =>
    obtain ⟨hc, hd⟩ := access_ctrl e ram hl
    have hv : e.valid = true := (Slot.live_iff.mp hl).1
    cases hp : e.produces r with
    | false =>
      simp only [produces, hl, Bool.true_and] at hp
      simp only [MemWb.produces, hc, hd, Bool.and_assoc, hp, Bool.and_false]
    | true =>
      have ht := hf hp
      simp only [produces, hl, Bool.true_and] at hp
      simp [MemWb.produces, hc, hd, Slot.live, access_valid, hv, ht, hp]

namespace IdEx

theorem execute_valid (e : IdEx) (exMem : ExMem) (memWb : MemWb) :
    (e.execute exMem memWb).valid = e.valid := by
  unfold execute
  split
  · split <;> simp_all
  · simp_all

theorem execute_live (e : IdEx) (exMem : ExMem) (memWb : MemWb) :
    (e.execute exMem memWb).live = e.live := by
  unfold execute Slot.live
  split
  · rename_i hv
    cases e.trap <;> simp [hv]
  · rename_i hv
    simp [hv]

theorem execute_produces (e : IdEx) (exMem : ExMem) (memWb : MemWb) (r : Reg) :
    (e.execute exMem memWb).produces r = e.produces r := by
  unfold ExMem.produces produces
  rw [execute_live]
  cases hl : e.live with
  | false => rfl
  | true =>
    obtain ⟨hv, ht⟩ := Slot.live_iff.mp hl
    simp [execute, hv, ht]

theorem execute_ctrl (e : IdEx) (exMem : ExMem) (memWb : MemWb) (h : e.live = true) :
    (e.execute exMem memWb).ctrl = e.ctrl := by
  obtain ⟨hv, ht⟩ := Slot.live_iff.mp h
  simp [execute, hv, ht]

theorem operand_zero (exMem : ExMem) (memWb : MemWb) (v : Word) : operand exMem memWb 0 v = v := by
  simp [operand, Source.forExecute, ExMem.forwards_zero, MemWb.forwards_zero, Source.select]

end IdEx

namespace Core

theorem executed_forwards (c : Core) {r : Reg} (hr : r ≠ 0) :
    c.executed.forwardsTo r.toNat = (c.idEx.produces r && !c.idEx.ctrl.memRead) := by
  rw [ExMem.forwards_iff _ hr, executed, IdEx.execute_produces]
  cases hp : c.idEx.produces r with
  | false => rfl
  | true =>
    rw [IdEx.execute_ctrl _ _ _ (IdEx.live_of_produces hp)]

theorem writeback_read (c : Core) (hp : c.memWb.Passes) {r : Reg} (hr : r ≠ 0) :
    c.writeback.read r = if c.memWb.produces r then c.memWb.result else c.regs.read r := by
  unfold writeback
  cases hv : c.memWb.valid with
  | false => simp [MemWb.produces, Slot.live, hv]
  | true =>
    obtain ⟨ht, -, -⟩ := hp hv
    cases hw : c.memWb.ctrl.regWrite with
    | false => simp [MemWb.produces, hw]
    | true => simp [MemWb.produces, Slot.live, hv, ht, hw, Registers.read_write _ _ _ hr]

theorem decode_operand_zero (c : Core) : c.decodeOperand 0 = 0 := by
  have he : ¬c.exMem.forwardsTo (0 : Reg).toNat = true :=
    Bool.not_eq_true _ ▸ ExMem.forwards_zero _
  unfold decodeOperand Issue.operand Source.forDecode
  rw [if_neg he]
  exact Registers.read_zero _

theorem decode_operand (c : Core) (hp : c.memWb.Passes) {r : Reg} (hr : r ≠ 0) :
    c.decodeOperand r =
      if c.exMem.produces r && !c.exMem.ctrl.memRead then c.exMem.alu
      else if c.memWb.produces r then c.memWb.result
      else c.regs.read r := by
  rw [decodeOperand, Issue.operand, Source.forDecode, ExMem.forwards_iff _ hr]
  split
  · rfl
  · exact c.writeback_read hp hr

end Core

namespace Machine

/-- Decode has the architectural value of a register that a transfer need not
wait for. -/
theorem decode_architectural (m : Machine) (hp : m.core.memWb.Passes) {r : Reg} (hr : r ≠ 0)
    (hw : m.core.awaits true r = false) : m.core.decodeOperand r = m.architectural r := by
  have hex : m.core.idEx.produces r = false := by
    cases h : m.core.idEx.produces r with
    | false => rfl
    | true => simp [Core.awaits, h] at hw
  rw [m.core.decode_operand hp hr, architectural, hex]
  cases hm : m.core.exMem.produces r with
  | false => simp
  | true =>
    have hl : m.core.exMem.ctrl.memRead = false := by simpa [Core.awaits, hex, hm] using hw
    simp [hl, ExMem.value]

/-- Execute will have it in the next cycle, whatever decode had. -/
theorem execute_architectural (m : Machine) (hp : m.core.memWb.Passes) {r : Reg} (hr : r ≠ 0)
    (hw : m.core.awaits false r = false)
    (hf : m.core.idEx.produces r = false → m.core.exMem.produces r = true →
      (m.core.exMem.access m.ram).2.trap = none) :
    IdEx.operand m.core.executed (m.core.exMem.access m.ram).2 r.toNat (m.core.decodeOperand r) =
      m.architectural r := by
  rw [IdEx.operand, Source.forExecute, m.core.executed_forwards hr, architectural]
  cases hex : m.core.idEx.produces r with
  | true =>
    have hl : m.core.idEx.ctrl.memRead = false := by simpa [Core.awaits, hex] using hw
    simp [hl, Source.select]
  | false =>
    rw [MemWb.forwards_iff _ hr, ExMem.access_produces _ _ r (hf hex)]
    cases hm : m.core.exMem.produces r with
    | true =>
      have hl := ExMem.live_of_produces hm
      simpa [Source.select] using ExMem.access_result _ _ hl (hf hex hm)
    | false => simp [Source.select, m.core.decode_operand hp hr, hm]

end Machine

end FiveStage
