import FiveStage.Proofs.Flight
import FiveStage.Proofs.Stall

/-!
# A cycle moves every instruction on

While the program goes on, a cycle retires the instruction in the last latch
and takes each of the others one stage further, except that decode may hold its
own back. The only freedom is what fetch brings in.
-/

set_option autoImplicit false

namespace FiveStage

open FiveStage.Sequential FiveStage.Sequential.State

theorem Slot.fetch_pc (ram : Memory) (pc : Word) : (Slot.fetch ram pc).pc = pc := by
  unfold Slot.fetch
  split <;> rfl

theorem Slot.fetch_valid (ram : Memory) (pc : Word) : (Slot.fetch ram pc).valid = true := by
  unfold Slot.fetch
  split <;> rfl

namespace Core

theorem decoded_empty {c : Core} (h : c.ifId.valid = false) : c.decoded = {} :=
  Issue.ofSlot_empty _ _ _ h

theorem decoded_valid (c : Core) : c.decoded.entry.valid = c.ifId.valid :=
  Issue.ofSlot_valid _ _ _ _

theorem decided_going {c : Core} (h : c.decided ≠ .stall) :
    c.decided = if c.decoded.jump then .flush else .noAction := by
  have hj : (c.hazard c.decoded).jump = c.decoded.jump := rfl
  unfold decided Hazard.decision at h ⊢
  split at h
  · exact absurd rfl h
  · rename_i hn
    rw [if_neg hn, hj]

theorem going_straight {c : Core} (h : c.decided = .noAction) : c.decoded.jump = false := by
  have hd := decided_going (c := c) (by simp [h])
  rw [h] at hd
  split at hd <;> simp_all

theorem going_elsewhere {c : Core} (h : c.decided = .flush) : c.decoded.jump = true := by
  have hd := decided_going (c := c) (by simp [h])
  rw [h] at hd
  split at hd <;> simp_all

theorem decided_inert {c : Core} (h1 : c.decoded.snapshot.rs1 = 0)
    (h2 : c.decoded.snapshot.rs2 = 0) : c.decided ≠ .stall := by
  have hr : ∀ n, (c.hazard c.decoded).reads n = false := by
    intro n
    have e1 : (c.hazard c.decoded).rs1 = 0 := h1
    have e2 : (c.hazard c.decoded).rs2 = 0 := h2
    cases n <;> simp [Hazard.reads, e1, e2]
  intro hs
  rcases (Hazard.decision_stall_iff _).mp hs with h | h <;>
    simp [Hazard.exDependency, Hazard.memDependency, hr] at h

theorem decided_empty {c : Core} (h : c.ifId.valid = false) : c.decided = .noAction := by
  have hd := decoded_empty h
  rw [decided_going (decided_inert (by rw [hd]) (by rw [hd])), hd]
  rfl

theorem decided_valid {c : Core} (h : c.decided ≠ .noAction) : c.ifId.valid = true := by
  cases hv : c.ifId.valid with
  | true => rfl
  | false => exact absurd (decided_empty hv) h

theorem next_idEx_valid {c : Core} {ram : Memory} (h : (c.next ram).idEx.valid = true) :
    c.decided ≠ .stall ∧ c.ifId.valid = true ∧ (c.next ram).idEx = c.decoded.entry := by
  have hgo : c.decided ≠ .stall := fun hd => by simp [next, hd] at h
  have hentry : (c.next ram).idEx = c.decoded.entry := if_neg hgo
  rw [hentry, decoded_valid] at h
  exact ⟨hgo, h, hentry⟩

theorem next_pastMemory (c : Core) (ram : Memory) (n : Nat) :
    (c.next ram).pastMemory (c.pastMemory n) = c.pastExecute n := by
  have hv : (c.next ram).memWb.valid = c.exMem.valid := ExMem.access_valid _ _
  rw [pastMemory, hv, pastExecute]

theorem next_pastExecute (c : Core) (ram : Memory) (n : Nat) :
    (c.next ram).pastExecute (c.pastMemory n) = c.pastDecode n := by
  have hv : (c.next ram).exMem.valid = c.idEx.valid := IdEx.execute_valid _ _ _
  rw [pastExecute, next_pastMemory, hv, pastDecode]

theorem next_pastDecode (c : Core) (ram : Memory) (n : Nat) :
    (c.next ram).pastDecode (c.pastMemory n) =
      if c.decided = .stall then c.pastDecode n else c.pastDecode n + c.ifId.valid.toNat := by
  rw [pastDecode, next_pastExecute]
  simp only [next]
  split
  · rfl
  · rw [decoded_valid]

end Core

namespace InFlight

variable {slots : Nat → Slot} {s₀ s : State} {n : Nat} {m : Machine}

theorem source_eq (h : InFlight slots s₀ n m)
    (hs : course slots s₀ (m.core.pastDecode n) = some s) {early : Bool} {r : Reg}
    (hw : r ≠ 0 → m.core.awaits early r = false) :
    (early = true → m.core.decodeOperand r = s.regs.read r) ∧
      IdEx.operand m.core.executed (m.core.exMem.access m.ram).2 r.toNat
        (m.core.decodeOperand r) = s.regs.read r := by
  by_cases hr : r = 0
  · subst hr
    have h0 : s.regs.read 0 = 0 := Registers.read_zero _
    rw [Core.decode_operand_zero, h0]
    exact ⟨fun _ => rfl, IdEx.operand_zero _ _ _⟩
  · obtain ⟨s', hs'⟩ := course_le hs (Nat.le_add_right _ _)
    obtain ⟨s'', hs''⟩ := course_le hs' (Nat.le_add_right _ _)
    obtain ⟨hp, -, -⟩ := h.at_memory hs''
    obtain ⟨hok, -, -⟩ := h.at_execute hs'
    have hlate := Core.awaits_late (hw hr)
    rw [← h.architectural_eq hs hr hlate]
    constructor
    · rintro rfl
      exact m.decode_architectural hp hr (hw hr)
    · exact m.execute_architectural hp hr hlate fun _ hm =>
        hok (Slot.live_iff.mp (ExMem.live_of_produces hm)).1

/-- The instruction that leaves decode is the one of the course: it goes where
the program goes, and it will be executed with the operands of the program. -/
theorem decoded_eq (h : InFlight slots s₀ n m) (hv : m.core.ifId.valid = true)
    (hs : course slots s₀ (m.core.pastDecode n) = some s) :
    m.core.decoded.snapshot = (s.issue (slots (m.core.pastDecode n))).snapshot ∧
      (m.core.decided ≠ .stall →
        m.core.decoded.jump = (s.issue (slots (m.core.pastDecode n))).jump ∧
        m.core.decoded.target = (s.issue (slots (m.core.pastDecode n))).target ∧
        m.core.decoded.entry.execute m.core.executed (m.core.exMem.access m.ram).2 =
          s.executed (slots (m.core.pastDecode n))) := by
  obtain ⟨hslot, -⟩ := h.ifId hv s hs
  rw [← hslot]
  rcases m.core.ifId.legal_or_fault hv with ⟨hl, c, hc⟩ | ⟨t, -, hi⟩
  · rw [Core.decoded_legal hl hc, issue_legal hl hc]
    refine ⟨rfl, fun hgo => ?_⟩
    have hsnap : m.core.decoded.snapshot = Snapshot.ofInstruction (decode m.core.ifId.inst) c := by
      rw [Core.decoded_legal hl hc]
      rfl
    have hw : ∀ r : Reg, (decode m.core.ifId.inst).rs1 = r ∨ (decode m.core.ifId.inst).rs2 = r →
        r ≠ 0 → m.core.awaits c.isTransfer r = false := fun r hread hr =>
      Bool.eq_false_iff.mpr fun hw =>
        hgo ((Core.decided_stall_iff hsnap).mpr ⟨r, hr, hread, hw⟩)
    obtain ⟨hd1, hx1⟩ := h.source_eq hs (hw _ (.inl rfl))
    obtain ⟨hd2, hx2⟩ := h.source_eq hs (hw _ (.inr rfl))
    -- decode's own operands are right only where it uses them
    have htransfer : Issue.transfer m.core.ifId.pc (decode m.core.ifId.inst) c
        (m.core.decodeOperand (decode m.core.ifId.inst).rs1)
        (m.core.decodeOperand (decode m.core.ifId.inst).rs2) =
        Issue.transfer m.core.ifId.pc (decode m.core.ifId.inst) c
        (s.regs.read (decode m.core.ifId.inst).rs1)
        (s.regs.read (decode m.core.ifId.inst).rs2) := by
      cases ht : c.isTransfer with
      | true => rw [hd1 ht, hd2 ht]
      | false =>
        simp only [Control.isTransfer, Bool.or_eq_false_iff] at ht
        simp [Issue.transfer, ht.1, ht.2]
    refine ⟨congrArg Prod.fst htransfer, congrArg Prod.snd htransfer, ?_⟩
    rw [executed_legal hl hc]
    simp only [Issue.ofLegal, IdEx.execute, if_true, hx1, hx2, Instruction.control_rd hc]
  · have hd : m.core.decoded = Issue.trapped m.core.ifId.pc m.core.ifId.inst t := hi _ _ _
    have hi' : s.issue m.core.ifId = Issue.trapped m.core.ifId.pc m.core.ifId.inst t := hi _ _ _
    rw [executed_fault hi', hd, hi']
    exact ⟨rfl, fun _ => ⟨rfl, rfl, rfl⟩⟩

theorem next_memWb (h : InFlight slots s₀ n m)
    (hs : course slots s₀ (m.core.pastMemory n) = some s) (hv : m.core.exMem.valid = true) :
    m.core.exMem.access m.ram = s.accessed (slots (m.core.pastMemory n)) := by
  obtain ⟨-, -, hram⟩ := h.at_memory hs
  rw [h.exMem hv s hs, hram]
  rfl

theorem next_ifId (h : InFlight slots s₀ n m) (k : Nat)
    (hk : k = if m.core.decided = .stall then m.core.pastDecode n
      else m.core.pastDecode n + m.core.ifId.valid.toNat)
    (hs : course slots s₀ k = some s)
    (hfetch : m.core.decided = .noAction →
      slots k = Slot.fetch (m.core.exMem.access m.ram).1 s.pc) :
    ((m.core.next m.ram).ifId.valid = true →
      (m.core.next m.ram).ifId = slots k ∧ (m.core.next m.ram).ifId.pc = s.pc) ∧
    (m.core.next m.ram).pc =
      if (m.core.next m.ram).ifId.valid then s.pc + Word.instructionSize else s.pc := by
  cases hd : m.core.decided with
  | stall =>
    rw [if_pos hd] at hk
    subst hk
    simp only [Core.next, hd]
    exact ⟨fun hv => h.ifId hv s hs, h.pc s hs⟩
  | flush =>
    have hgo : m.core.decided ≠ .stall := by simp [hd]
    have hv : m.core.ifId.valid = true := Core.decided_valid (by simp [hd])
    simp only [hd, reduceCtorEq, if_false, hv, Bool.toNat_true] at hk
    subst hk
    obtain ⟨s', hs', hnext⟩ := course_pred hs
    obtain ⟨hj, ht, -⟩ := (h.decoded_eq hv hs').2 hgo
    obtain ⟨-, -, rfl⟩ := settle_next hnext
    simp [Core.next, hd, ht, ← hj, Core.going_elsewhere hd]
  | noAction =>
    have hgo : m.core.decided ≠ .stall := by simp [hd]
    -- either decode is empty, or what leaves it does not move the pc
    have hpc : m.core.pc = s.pc := by
      simp only [hd, reduceCtorEq, if_false] at hk
      subst hk
      cases hv : m.core.ifId.valid with
      | false =>
        simp only [hv, Bool.toNat_false, Nat.add_zero] at hs
        simpa [hv] using h.pc s hs
      | true =>
        simp only [hv, Bool.toNat_true] at hs
        obtain ⟨s', hs', hnext⟩ := course_pred hs
        obtain ⟨hj, -, -⟩ := (h.decoded_eq hv hs').2 hgo
        obtain ⟨hslot, hslotpc⟩ := h.ifId hv s' hs'
        obtain ⟨-, -, rfl⟩ := settle_next hnext
        rw [h.pc s' hs', if_pos hv, ← hslotpc, hslot]
        simp [← hj, Core.going_straight hd]
    have hslot := hfetch hd
    simp only [Core.next, hd, Slot.fetch_valid, Slot.fetch_pc, hpc, if_true]
    exact ⟨fun _ => ⟨hslot.symm, trivial⟩, trivial⟩

/-- The step: nothing is lost, doubled or changed on the way. -/
theorem advance (h : InFlight slots s₀ n m)
    (hs : course slots s₀ (m.core.pastMemory n) = some s)
    (hfetch : m.core.decided = .noAction →
      ∀ s', course slots s₀ (m.core.pastDecode n + m.core.ifId.valid.toNat) = some s' →
        slots (m.core.pastDecode n + m.core.ifId.valid.toNat) =
          Slot.fetch (m.core.exMem.access m.ram).1 s'.pc) :
    InFlight slots s₀ (m.core.pastMemory n)
      ⟨m.core.next m.ram, (m.core.exMem.access m.ram).1⟩ where
  running := h.running
  retired := ⟨s, hs, (h.at_memory hs).2.1⟩
  ram := by
    intro s' hs'
    obtain rfl : s = s' := Option.some.inj (hs.symm.trans hs')
    have hvalid : (m.core.next m.ram).memWb.valid = m.core.exMem.valid := ExMem.access_valid _ _
    simp only [hvalid]
    split
    · rename_i hv
      rw [h.next_memWb hs hv]
    · rename_i hv
      simp [ExMem.access, hv, (h.at_memory hs).2.2]
  memWb := by
    intro hv s' hs'
    obtain rfl : s = s' := Option.some.inj (hs.symm.trans hs')
    have hvalid : m.core.exMem.valid = true := (ExMem.access_valid _ _).symm.trans hv
    exact congrArg Prod.snd (h.next_memWb hs hvalid)
  exMem := by
    intro hv s' hs'
    simp only [Core.next_pastMemory] at hs' ⊢
    exact h.idEx ((IdEx.execute_valid _ _ _).symm.trans hv) s' hs'
  idEx := by
    intro hv s' hs'
    simp only [Core.next_pastExecute] at hs' ⊢
    obtain ⟨hgo, hvalid, hentry⟩ := Core.next_idEx_valid hv
    rw [← ((h.decoded_eq hvalid hs').2 hgo).2.2, Core.executed, hentry]
    rfl
  ifId := by
    intro hv s' hs'
    rw [Core.next_pastDecode] at hs'
    rw [Core.next_pastDecode]
    exact (h.next_ifId _ rfl hs' fun hd => by
      simp only [hd, reduceCtorEq, if_false] at hs' ⊢
      exact hfetch hd s' hs').1 hv
  pc := by
    intro s' hs'
    rw [Core.next_pastDecode] at hs'
    exact (h.next_ifId _ rfl hs' fun hd => by
      simp only [hd, reduceCtorEq, if_false] at hs' ⊢
      exact hfetch hd s' hs').2

end InFlight

end FiveStage
