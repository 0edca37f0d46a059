import FiveStage.Proofs.Schedule

/-!
# One instruction, seen from three stages

The hazard unit looks at an instruction in decode, in execute and in the memory
stage, and the multiplexers look at the entries that execute and the memory
stage hand on. All of them agree on what the instruction reads and writes and
on whether it loads, whatever the latches hold, so that a stall decided in one
cycle is about the producer that forwards in the next.
-/

set_option autoImplicit false

namespace FiveStage

namespace ExMem

variable {r : Nat}

theorem forwardsTo_snapshot (e : ExMem) (hr : r ≠ 0) :
    e.forwardsTo r = true ↔ (Snapshot.ofExMem e).rd = r ∧ (Snapshot.ofExMem e).memRead = false := by
  have hmem : e.live = true → (Snapshot.ofExMem e).memRead = e.ctrl.memRead := fun hl => by
    rw [Snapshot.ofExMem, if_pos hl]
  rw [Snapshot.ofExMem_names e hr]
  simp only [forwardsTo, Bool.and_eq_true, Bool.not_eq_true', bne_iff_ne, beq_iff_eq]
  constructor
  · rintro ⟨⟨⟨⟨hl, hw⟩, hm⟩, -⟩, hd⟩
    exact ⟨⟨hl, hw, hd⟩, (hmem hl).trans hm⟩
  · rintro ⟨⟨hl, hw, rfl⟩, hm⟩
    exact ⟨⟨⟨⟨hl, hw⟩, (hmem hl).symm.trans hm⟩, hr⟩, rfl⟩

/-- Whether the memory stage raises a trap for an instruction that has met none
so far. -/
def Faults (e : ExMem) (ram : Memory) : Prop :=
  e.live = true ∧ (e.access ram).2.trap ≠ none

instance (e : ExMem) (ram : Memory) : Decidable (e.Faults ram) :=
  inferInstanceAs (Decidable (_ ∧ _))

theorem access_live_iff (e : ExMem) (ram : Memory) :
    (e.access ram).2.live = true ↔ e.live = true ∧ ¬e.Faults ram := by
  by_cases hl : e.live = true
  · have hv : (e.access ram).2.valid = true :=
      (access_valid e ram).trans (Slot.live_iff.mp hl).1
    simp only [Slot.live_iff, hv, hl, Faults, true_and, ne_eq, Classical.not_not]
  · have hdead := (access_dead e ram (Bool.eq_false_iff.mpr hl)).1
    simp [hdead, hl]

theorem access_forwardsTo (e : ExMem) (ram : Memory) (hr : r ≠ 0) (hf : ¬e.Faults ram) :
    (e.access ram).2.forwardsTo r = true ↔ (Snapshot.ofExMem e).rd = r := by
  rw [Snapshot.ofExMem_names e hr]
  simp only [MemWb.forwardsTo, Bool.and_eq_true, bne_iff_ne, beq_iff_eq, access_live_iff]
  constructor
  · rintro ⟨⟨⟨⟨hl, -⟩, hw⟩, -⟩, hd⟩
    obtain ⟨hctrl, hrd⟩ := access_ctrl e ram hl
    exact ⟨hl, hctrl ▸ hw, hrd ▸ hd⟩
  · rintro ⟨hl, hw, hd⟩
    obtain ⟨hctrl, hrd⟩ := access_ctrl e ram hl
    rw [hctrl, hrd]
    exact ⟨⟨⟨⟨hl, hf⟩, hw⟩, hd ▸ hr⟩, hd⟩

end ExMem

/-- The snapshots of one instruction agree from stage to stage, and the entry
that a stage hands on forwards to a register exactly if the snapshot of what it
was given names it. A load forwards only after the memory stage. -/
theorem Machine.views_agree (m : Machine) :
    Snapshot.ofIdEx m.core.issue.entry = m.core.issue.snapshot ∧
    Snapshot.ofExMem m.core.executed = { Snapshot.ofIdEx m.core.idEx with rs1 := 0, rs2 := 0 } ∧
    ∀ r : Nat, r ≠ 0 →
      (m.core.executed.forwardsTo r = true ↔
        (Snapshot.ofIdEx m.core.idEx).rd = r ∧ (Snapshot.ofIdEx m.core.idEx).memRead = false) ∧
      (¬m.core.exMem.Faults m.ram →
        ((m.core.exMem.access m.ram).2.forwardsTo r = true ↔
          (Snapshot.ofExMem m.core.exMem).rd = r)) := by
  have hexecuted : Snapshot.ofExMem m.core.executed =
      { Snapshot.ofIdEx m.core.idEx with rs1 := 0, rs2 := 0 } :=
    Snapshot.ofExMem_execute m.core.idEx m.core.exMem m.core.memWb
  refine ⟨Snapshot.ofIdEx_issue m.core.ifId m.core.regs m.core.exMem m.core.memWb, hexecuted, ?_⟩
  intro r hr
  constructor
  · rw [ExMem.forwardsTo_snapshot m.core.executed hr, hexecuted]
  · exact m.core.exMem.access_forwardsTo m.ram hr

/-- A load in the memory stage, behind it one that reads what it loads, and a
word that is no instruction in decode. -/
def Machine.loading : Machine :=
  { core :=
      { regs := Registers.initial
        pc := 0x100c
        ifId := { valid := true, pc := 0x1008, inst := 0 }
        idEx :=
          { valid := true, pc := 0x1004, rs1 := 5, rd := 6, ctrl := { regWrite := true } }
        exMem :=
          { valid := true, pc := 0x1000, rd := 5, alu := 0x1008
            ctrl := { regWrite := true, memRead := true, width := .word } } }
    ram := Memory.zeros 0x1000 16 }

theorem Machine.views_agree_loading :
    (6 : Nat) ≠ 0 ∧ ¬loading.core.exMem.Faults loading.ram ∧
      loading.core.executed.forwardsTo 6 = true ∧ (5 : Nat) ≠ 0 ∧
      loading.core.exMem.forwardsTo 5 = false ∧
      (loading.core.exMem.access loading.ram).2.forwardsTo 5 = true := by
  have hfault : ¬loading.core.exMem.Faults loading.ram := by decide
  obtain ⟨-, -, hviews⟩ := views_agree loading
  obtain ⟨hexecute, -⟩ := hviews 6 (by decide)
  obtain ⟨-, hmemory⟩ := hviews 5 (by decide)
  exact ⟨by decide, hfault, hexecute.mpr ⟨rfl, rfl⟩, by decide, rfl, (hmemory hfault).mpr rfl⟩

end FiveStage
