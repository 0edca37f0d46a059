import FiveStage.Sequential
import FiveStage.Proofs.Operand

/-!
# One instruction in an empty pipeline

The stages applied one after the other to a single slot, with nothing in the
other latches and nothing beside them. The machine without a pipeline does
exactly this with the slot at its pc, so its step can be read off the stages.
-/

set_option autoImplicit false

namespace FiveStage

theorem IdEx.operand_alone (rs : Nat) (v : Word) :
    operand ExMem.bubble MemWb.bubble rs v = v := rfl

theorem Memory.access_idle (ram : Memory) {c : Control} (a v : Word) (hr : c.memRead = false)
    (hw : c.memWrite = false) : ram.access c a v = (ram, .ok 0) := by
  simp [access, hr, hw]

/-- A slot either carries a legal instruction or a trap, its own or that of an
illegal word. -/
theorem Slot.legal_or_fault (f : Slot) (hv : f.valid = true) :
    (f.live = true ∧ ∃ c, (decode f.inst).control? = some c) ∨
      ∃ t, (f.trap = some t ∨ f.trap = none ∧ (decode f.inst).control = .error t) ∧
        ∀ regs exMem memWb, Issue.ofSlot f regs exMem memWb = Issue.trapped f.pc f.inst t := by
  cases ht : f.trap with
  | some t => exact .inr ⟨t, .inl rfl, fun _ _ _ => by simp [Issue.ofSlot, hv, ht]⟩
  | none =>
    cases hc : (decode f.inst).control with
    | error t => exact .inr ⟨t, .inr ⟨rfl, rfl⟩, fun _ _ _ => by simp [Issue.ofSlot, hv, ht, hc]⟩
    | ok c => exact .inl ⟨by simp [live, hv, ht], c, Instruction.control_ok_iff.mp hc⟩

theorem Issue.ofSlot_empty {f : Slot} (regs : Registers) (exMem : ExMem) (memWb : MemWb)
    (h : f.valid = false) : ofSlot f regs exMem memWb = {} := by
  simp [ofSlot, h]

theorem Issue.ofSlot_valid (f : Slot) (regs : Registers) (exMem : ExMem) (memWb : MemWb) :
    (ofSlot f regs exMem memWb).entry.valid = f.valid := by
  cases hv : f.valid with
  | false => rw [ofSlot_empty _ _ _ hv]
  | true =>
    rcases f.legal_or_fault hv with ⟨hl, c, hc⟩ | ⟨t, -, hi⟩
    · rw [ofSlot_legal _ _ _ hl hc]
      rfl
    · rw [hi]
      rfl

theorem Issue.ofSlot_named (f : Slot) (regs : Registers) (exMem : ExMem) (memWb : MemWb) :
    (ofSlot f regs exMem memWb).entry.rs1 < 32 ∧ (ofSlot f regs exMem memWb).entry.rs2 < 32 ∧
      (ofSlot f regs exMem memWb).entry.rd < 32 := by
  cases hv : f.valid with
  | false =>
    rw [ofSlot_empty _ _ _ hv]
    decide
  | true =>
    rcases f.legal_or_fault hv with ⟨hl, c, hc⟩ | ⟨t, -, hi⟩
    · rw [ofSlot_legal _ _ _ hl hc]
      refine ⟨(decode f.inst).rs1.isLt, (decode f.inst).rs2.isLt, ?_⟩
      exact Nat.lt_of_le_of_lt (Nat.le_of_eq (Instruction.control_rd hc)) (decode f.inst).rd.isLt
    · rw [hi]
      exact ⟨Nat.zero_lt_succ _, Nat.zero_lt_succ _, Nat.zero_lt_succ _⟩

theorem IdEx.execute_rd_lt {e : IdEx} (h : e.rd < 32) (exMem : ExMem) (memWb : MemWb) :
    (e.execute exMem memWb).rd < 32 := by
  unfold execute
  split
  · split
    · exact Nat.zero_lt_succ _
    · exact h
  · exact Nat.zero_lt_succ _

theorem ExMem.access_rd_lt {e : ExMem} (h : e.rd < 32) (ram : Memory) :
    (e.access ram).2.rd < 32 := by
  unfold access
  split
  · exact Nat.zero_lt_succ _
  · split
    · exact h
    · split <;> exact h

namespace Sequential.State

def issue (s : State) (f : Slot) : Issue :=
  Issue.ofSlot f s.regs ExMem.bubble MemWb.bubble

def executed (s : State) (f : Slot) : ExMem :=
  (s.issue f).entry.execute ExMem.bubble MemWb.bubble

def accessed (s : State) (f : Slot) : Memory × MemWb :=
  (s.executed f).access s.ram

/-- What carrying out the instruction in a slot leads to, read off its entry
for writeback. -/
def settle (s : State) (f : Slot) : Outcome :=
  match (s.accessed f).2.trap with
  | some t => .trapped f.pc t
  | none =>
    if (s.accessed f).2.ctrl.halt then .halted (s.regs.read Reg.a0)
    else .next
      { regs := if (s.accessed f).2.ctrl.regWrite
          then s.regs.write (s.accessed f).2.rd (s.accessed f).2.result else s.regs
        pc := if (s.issue f).jump then (s.issue f).target else f.pc + Word.instructionSize
        ram := (s.accessed f).1 }

section Legal
variable {s : State} {f : Slot} {c : Control}

theorem issue_legal (hl : f.live = true) (hc : (decode f.inst).control? = some c) :
    s.issue f = Issue.ofLegal f.pc f.inst (decode f.inst) c (s.regs.read (decode f.inst).rs1)
      (s.regs.read (decode f.inst).rs2) :=
  Issue.ofSlot_legal _ _ _ hl hc

theorem executed_legal (hl : f.live = true) (hc : (decode f.inst).control? = some c) :
    s.executed f =
      { valid := true
        pc := f.pc
        inst := f.inst
        rd := (decode f.inst).rd.toNat
        alu := c.result f.pc (decode f.inst).imm (s.regs.read (decode f.inst).rs1)
          (s.regs.read (decode f.inst).rs2)
        storeData := s.regs.read (decode f.inst).rs2
        ctrl := c } := by
  rw [executed, issue_legal hl hc]
  simp [Issue.ofLegal, IdEx.execute, IdEx.operand_alone, Instruction.control_rd hc]

end Legal

theorem executed_fault {s : State} {f : Slot} {t : Trap}
    (h : s.issue f = Issue.trapped f.pc f.inst t) :
    s.executed f = { valid := true, pc := f.pc, inst := f.inst, trap := some t } := by
  rw [executed, h]
  rfl

theorem settle_fault {s : State} {f : Slot} {t : Trap}
    (h : s.issue f = Issue.trapped f.pc f.inst t) : s.settle f = .trapped f.pc t := by
  have ha : (s.accessed f).2.trap = some t := by
    rw [accessed, executed_fault h]
    rfl
  simp [settle, ha]

theorem accessed_rd_lt (s : State) (f : Slot) : (s.accessed f).2.rd < 32 :=
  ExMem.access_rd_lt (IdEx.execute_rd_lt (Issue.ofSlot_named _ _ _ _).2.2 _ _) _

theorem executed_valid (s : State) (f : Slot) : (s.executed f).valid = f.valid := by
  rw [executed, IdEx.execute_valid, issue, Issue.ofSlot_valid]

theorem executed_pc {f : Slot} (s : State) (hv : f.valid = true) : (s.executed f).pc = f.pc := by
  rcases f.legal_or_fault hv with ⟨hl, c, hc⟩ | ⟨t, -, hi⟩
  · rw [executed_legal hl hc]
  · rw [executed_fault (hi _ _ _)]

theorem accessed_valid (s : State) (f : Slot) : (s.accessed f).2.valid = f.valid := by
  rw [accessed, ExMem.access_valid, executed_valid]

theorem accessed_pc {f : Slot} (s : State) (hv : f.valid = true) :
    (s.accessed f).2.pc = f.pc := by
  rw [accessed, ExMem.access_pc _ _ (by rw [executed_valid, hv]), executed_pc s hv]

theorem settle_next {s s' : State} {f : Slot} (h : s.settle f = .next s') :
    (s.accessed f).2.trap = none ∧ (s.accessed f).2.ctrl.halt = false ∧
      s' = { regs := if (s.accessed f).2.ctrl.regWrite
               then s.regs.write (s.accessed f).2.rd (s.accessed f).2.result else s.regs
             pc := if (s.issue f).jump then (s.issue f).target else f.pc + Word.instructionSize
             ram := (s.accessed f).1 } := by
  unfold settle at h
  split at h
  · exact absurd h (by simp)
  · rename_i ht
    split at h
    · exact absurd h (by simp)
    · rename_i hh
      exact ⟨ht, by simpa using hh, (Outcome.next.inj h).symm⟩

theorem read_settle {s s' : State} {f : Slot} (h : s.settle f = .next s')
    (hv : (s.accessed f).2.valid = true) {r : Reg} (hr : r ≠ 0) :
    s'.regs.read r = if (s.accessed f).2.produces r then (s.accessed f).2.result
      else s.regs.read r := by
  obtain ⟨ht, -, rfl⟩ := settle_next h
  simp only [MemWb.produces, Slot.live, hv, ht]
  cases (s.accessed f).2.ctrl.regWrite with
  | false => simp
  | true => simp [Registers.read_write _ _ _ hr]

theorem settle_trapped {s : State} {f : Slot} {pc : Word} {t : Trap}
    (h : s.settle f = .trapped pc t) :
    (s.accessed f).2.trap = some t ∧ pc = f.pc ∧ (s.accessed f).1 = s.ram := by
  unfold settle at h
  split at h
  · rename_i ht
    obtain ⟨rfl, rfl⟩ := Outcome.trapped.inj h
    exact ⟨ht, rfl, ExMem.access_fault _ _ ht⟩
  · split at h <;> exact absurd h (by simp)

theorem settle_halted {s : State} {f : Slot} {code : Word} (hv : f.valid = true)
    (h : s.settle f = .halted code) :
    (s.accessed f).2.trap = none ∧ (s.accessed f).2.ctrl.halt = true ∧
      (s.accessed f).2.ctrl.regWrite = false ∧ (s.accessed f).1 = s.ram ∧
      code = s.regs.read Reg.a0 := by
  rcases f.legal_or_fault hv with ⟨hl, c, hc⟩ | ⟨t, -, hi⟩
  · have he := executed_legal (s := s) hl hc
    have hlive : (s.executed f).live = true := by rw [he]; rfl
    have hctrl : (s.accessed f).2.ctrl = c := by
      rw [accessed, (ExMem.access_ctrl _ _ hlive).1, he]
    unfold settle at h
    split at h
    · exact absurd h (by simp)
    · rename_i ht
      split at h
      · rename_i hh
        have hc' := Instruction.control_halt hc (hctrl ▸ hh)
        refine ⟨ht, hh, hctrl ▸ hc'.1, ?_, (Outcome.halted.inj h).symm⟩
        rw [accessed, ExMem.access_live _ _ hlive, he]
        simp [Memory.access_idle _ _ _ hc'.2.1 hc'.2.2.1]
      · exact absurd h (by simp)
  · rw [settle_fault (hi _ _ _)] at h
    exact absurd h (by simp)

/-- The machine without a pipeline takes each instruction through the stages. -/
theorem step_settle (s : State) : s.step = s.settle (Slot.fetch s.ram s.pc) := by
  unfold step
  cases hw : s.ram.fetch s.pc with
  | error t =>
    have hi : s.issue (Slot.fetch s.ram s.pc) = Issue.trapped s.pc Word.nop t := by
      simp [issue, Slot.fetch, hw, Issue.ofSlot]
    rw [settle_fault (t := t) (by rw [hi]; simp [Slot.fetch, hw])]
    simp [Slot.fetch, hw]
  | ok w =>
    have hf : Slot.fetch s.ram s.pc = { valid := true, pc := s.pc, inst := w } := by
      simp [Slot.fetch, hw]
    rw [hf]
    cases hc : (decode w).control with
    | error t =>
      rw [settle_fault (t := t) (by simp [issue, Issue.ofSlot, hc])]
      simp [hc]
    | ok c =>
      have hc' := Instruction.control_ok_iff.mp hc
      have hi := issue_legal (s := s) (f := { valid := true, pc := s.pc, inst := w }) rfl hc'
      have he := executed_legal (s := s) (f := { valid := true, pc := s.pc, inst := w }) rfl hc'
      simp only [hc]
      unfold settle accessed
      rw [hi, he, ExMem.access_live _ _ rfl]
      split
      · rename_i hh
        obtain ⟨-, hr, hm, -⟩ := Instruction.control_halt hc' hh
        simp [Memory.access_idle _ _ _ hr hm, hh, ExMem.passed]
      · rename_i hh
        simp only [Bool.not_eq_true] at hh
        simp only [perform]
        split
        · rename_i hacc
          simp [hacc]
        · rename_i hacc
          simp only [hacc, hh, ExMem.passed, MemWb.result, Issue.ofLegal]
          rfl

end Sequential.State

end FiveStage
