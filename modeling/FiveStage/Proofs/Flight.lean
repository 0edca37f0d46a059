import FiveStage.Proofs.Course

/-!
# Instructions in flight

The latches of a machine that has retired `n` instructions of a course hold
the next ones in order, each as far as the stages it has been through have
brought it. Whatever is fetched behind an instruction that ends the program is
unconstrained, since it never reaches memory or writeback.
-/

set_option autoImplicit false

namespace FiveStage

open FiveStage.Sequential FiveStage.Sequential.State

namespace Core

/-- How many instructions of a program have left a stage, if `n` are retired. -/
def pastMemory (c : Core) (n : Nat) : Nat :=
  n + c.memWb.valid.toNat

def pastExecute (c : Core) (n : Nat) : Nat :=
  c.pastMemory n + c.exMem.valid.toNat

def pastDecode (c : Core) (n : Nat) : Nat :=
  c.pastExecute n + c.idEx.valid.toNat

end Core

structure InFlight (slots : Nat → Slot) (s₀ : State) (n : Nat) (m : Machine) : Prop where
  running : m.core.exitCode = none
  retired : ∃ s, course slots s₀ n = some s ∧ m.core.regs = s.regs
  ram : ∀ s, course slots s₀ n = some s →
    m.ram = if m.core.memWb.valid then (s.accessed (slots n)).1 else s.ram
  memWb : m.core.memWb.valid = true → ∀ s, course slots s₀ n = some s →
    m.core.memWb = (s.accessed (slots n)).2
  exMem : m.core.exMem.valid = true → ∀ s, course slots s₀ (m.core.pastMemory n) = some s →
    m.core.exMem = s.executed (slots (m.core.pastMemory n))
  idEx : m.core.idEx.valid = true → ∀ s, course slots s₀ (m.core.pastExecute n) = some s →
    m.core.executed = s.executed (slots (m.core.pastExecute n))
  ifId : m.core.ifId.valid = true → ∀ s, course slots s₀ (m.core.pastDecode n) = some s →
    m.core.ifId = slots (m.core.pastDecode n) ∧ m.core.ifId.pc = s.pc
  pc : ∀ s, course slots s₀ (m.core.pastDecode n) = some s →
    m.core.pc = if m.core.ifId.valid then s.pc + Word.instructionSize else s.pc

variable {slots : Nat → Slot} {s₀ s : State} {n : Nat} {m : Machine}

namespace InFlight

/-- If the program goes on after the instruction in the last latch, that latch
passes, and registers and memory are those of the next state. -/
theorem at_memory (h : InFlight slots s₀ n m)
    (hs : course slots s₀ (m.core.pastMemory n) = some s) :
    m.core.memWb.Passes ∧ m.core.writeback = s.regs ∧ m.ram = s.ram := by
  obtain ⟨s', hs', hregs⟩ := h.retired
  have hram := h.ram s' hs'
  cases hv : m.core.memWb.valid with
  | false =>
    simp only [Core.pastMemory, hv, Bool.toNat_false, Nat.add_zero, hs', Option.some.injEq] at hs
    subst hs
    exact ⟨fun hv' => by simp [hv] at hv', by simp [Core.writeback, hv, hregs], by simpa [hv] using hram⟩
  | true =>
    simp only [Core.pastMemory, hv, Bool.toNat_true] at hs
    obtain ⟨s'', hs'', hnext⟩ := course_pred hs
    obtain rfl : s' = s'' := Option.some.inj (hs'.symm.trans hs'')
    have hwb := h.memWb hv s' hs'
    obtain ⟨ht, hh, rfl⟩ := settle_next hnext
    rw [← hwb] at ht hh
    refine ⟨fun _ => ⟨ht, hh, fun _ => hwb ▸ accessed_rd_lt _ _⟩, ?_, by simpa [hv] using hram⟩
    simp [Core.writeback, hv, hregs, ← hwb]

theorem at_execute (h : InFlight slots s₀ n m)
    (hs : course slots s₀ (m.core.pastExecute n) = some s) :
    (m.core.exMem.valid = true → (m.core.exMem.access m.ram).2.trap = none) ∧
      (m.core.exMem.access m.ram).1 = s.ram ∧
      ∀ r : Reg, r ≠ 0 → s.regs.read r =
        if m.core.exMem.produces r then m.core.exMem.value m.ram
        else m.core.writeback.read r := by
  obtain ⟨s', hs'⟩ := course_le hs (Nat.le_add_right _ _)
  obtain ⟨-, hregs, hram⟩ := h.at_memory hs'
  cases hv : m.core.exMem.valid with
  | false =>
    simp only [Core.pastExecute, hv, Bool.toNat_false, Nat.add_zero, hs', Option.some.injEq] at hs
    subst hs
    refine ⟨by simp, by simp [ExMem.access, hv, hram], fun r _ => ?_⟩
    simp [ExMem.produces, Slot.live, hv, hregs]
  | true =>
    simp only [Core.pastExecute, hv, Bool.toNat_true] at hs
    obtain ⟨s'', hs'', hnext⟩ := course_pred hs
    obtain rfl : s' = s'' := Option.some.inj (hs'.symm.trans hs'')
    have hex := h.exMem hv s' hs'
    have hacc : m.core.exMem.access m.ram = s'.accessed (slots (m.core.pastMemory n)) := by
      rw [hex, hram]
      rfl
    have hvalid : (s'.accessed (slots (m.core.pastMemory n))).2.valid = true := by
      rw [← hacc, ExMem.access_valid, hv]
    obtain ⟨ht, -, hs⟩ := settle_next hnext
    refine ⟨fun _ => by rw [hacc, ht], by rw [hacc, hs], fun r hr => ?_⟩
    rw [read_settle hnext hvalid hr, ← hacc, ExMem.access_produces _ _ r (fun _ => by rw [hacc, ht]),
      hregs]
    cases hp : m.core.exMem.produces r with
    | false => rfl
    | true =>
      have hl := ExMem.live_of_produces hp
      exact ExMem.access_result _ _ hl (by rw [hacc, ht])

/-- The register values that the program in decode has to see are those of the
machine without a pipeline, except for a load that is still in execute. -/
theorem architectural_eq (h : InFlight slots s₀ n m)
    (hs : course slots s₀ (m.core.pastDecode n) = some s) {r : Reg} (hr : r ≠ 0)
    (hw : m.core.awaits false r = false) : m.architectural r = s.regs.read r := by
  obtain ⟨s', hs'⟩ := course_le hs (Nat.le_add_right _ _)
  obtain ⟨s'', hs''⟩ := course_le hs' (Nat.le_add_right _ _)
  obtain ⟨hp, -, -⟩ := h.at_memory hs''
  obtain ⟨-, -, hread⟩ := h.at_execute hs'
  have hbefore : s'.regs.read r =
      if m.core.exMem.produces r then m.core.exMem.value m.ram
      else if m.core.memWb.produces r then m.core.memWb.result else m.core.regs.read r := by
    rw [hread r hr, m.core.writeback_read hp hr]
  rw [Machine.architectural, ← hbefore]
  cases hv : m.core.idEx.valid with
  | false =>
    simp only [Core.pastDecode, hv, Bool.toNat_false, Nat.add_zero, hs', Option.some.injEq] at hs
    subst hs
    simp [IdEx.produces, Slot.live, hv]
  | true =>
    -- the instruction in execute leads from the state before it to the one in decode
    simp only [Core.pastDecode, hv, Bool.toNat_true] at hs
    obtain ⟨t, ht, hnext⟩ := course_pred hs
    obtain rfl : s' = t := Option.some.inj (hs'.symm.trans ht)
    have hex := h.idEx hv s' hs'
    obtain ⟨htrap, -, -⟩ := settle_next hnext
    have hvalid : (s'.accessed (slots (m.core.pastExecute n))).2.valid = true := by
      rw [accessed_valid, ← executed_valid s', ← hex, Core.executed, IdEx.execute_valid, hv]
    rw [read_settle hnext hvalid hr]
    have hprod : (s'.accessed (slots (m.core.pastExecute n))).2.produces r =
        m.core.idEx.produces r := by
      rw [accessed, ExMem.access_produces _ _ r (fun _ => htrap), ← hex, Core.executed,
        IdEx.execute_produces]
    rw [hprod]
    cases hq : m.core.idEx.produces r with
    | false => rfl
    | true =>
      have hl := IdEx.live_of_produces hq
      have hlive : (s'.executed (slots (m.core.pastExecute n))).live = true := by
        rw [← hex, Core.executed, IdEx.execute_live, hl]
      have hload : m.core.idEx.ctrl.memRead = false := by simpa [Core.awaits, hq] using hw
      have hval := ExMem.access_result _ s'.ram hlive htrap
      rw [← hex, ExMem.value, Core.executed, IdEx.execute_ctrl _ _ _ hl, hload] at hval
      rw [accessed, ← hex]
      exact hval.symm

end InFlight

end FiveStage
