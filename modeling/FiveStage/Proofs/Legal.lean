import FiveStage.Isa.Control

/-!
# The signals of legal instructions

Which signals a legal instruction has follows from its major opcode alone, up
to the operation, the width and the operands.
-/

set_option autoImplicit false

namespace FiveStage

namespace Instruction

/-- Branches and `jalr` use their source registers in decode. -/
def usesInDecode (d : Instruction) : Bool :=
  d.opcode? == some .branch || d.opcode? == some .jalr

theorem control_signals {d : Instruction} {c : Control} (h : d.control? = some c) :
    ∃ o, d.opcode? = some o ∧
      c.regWrite = (Format.ofOpcode o).writesRd ∧
      c.memRead = (o == .load) ∧ c.memWrite = (o == .store) ∧
      c.branch = (o == .branch) ∧ c.jump = (o == .jal || o == .jalr) ∧
      c.halt = (o == .system) := by
  unfold control? at h
  cases ho : d.opcode? with
  | none => simp [ho] at h
  | some o =>
    refine ⟨o, rfl, ?_⟩
    rw [ho] at h
    cases o <;> simp only [Option.some.injEq, Option.map_eq_some_iff, Option.ite_none_right_eq_some,
      Prod.exists] at h
    case lui | auipc | jal => subst h; exact ⟨rfl, rfl, rfl, rfl, rfl, rfl⟩
    case jalr | miscMem | system => obtain ⟨-, rfl⟩ := h; exact ⟨rfl, rfl, rfl, rfl, rfl, rfl⟩
    case branch | store | opImm | op => obtain ⟨_, -, rfl⟩ := h; exact ⟨rfl, rfl, rfl, rfl, rfl, rfl⟩
    case load => obtain ⟨_, _, -, rfl⟩ := h; exact ⟨rfl, rfl, rfl, rfl, rfl, rfl⟩

theorem control_halt {d : Instruction} {c : Control} (h : d.control? = some c)
    (hh : c.halt = true) : c.regWrite = false ∧ c.memRead = false ∧ c.memWrite = false ∧
      c.branch = false ∧ c.jump = false := by
  obtain ⟨o, -, hw, hr, hm, hb, hj, ho⟩ := control_signals h
  rw [ho, beq_iff_eq] at hh
  subst hh
  exact ⟨hw, hr, hm, hb, hj⟩

theorem opcode_format {w : Word} {o : Opcode} (h : (decode w).opcode? = some o) :
    (decode w).format = Format.ofOpcode o := by
  simp only [opcode?, decode] at h
  simp [decode, Format.ofBits, h]

theorem decode_opcode {w : Word} {o : Opcode} (h : (decode w).opcode? = some o) :
    decode w =
      { raw := w
        opcode := Word.opcode w
        format := Format.ofOpcode o
        rd := if (Format.ofOpcode o).writesRd then Word.rd w else 0
        rs1 := if (Format.ofOpcode o).readsRs1 then Word.rs1 w else 0
        rs2 := if (Format.ofOpcode o).readsRs2 then Word.rs2 w else 0
        funct3 := Word.funct3 w
        funct7 := Word.funct7 w
        imm := Word.imm w (Format.ofOpcode o) } := by
  rw [← opcode_format h]
  rfl

theorem decode_imm {w : Word} {o : Opcode} (h : (decode w).opcode? = some o) :
    (decode w).imm = Word.imm w (Format.ofOpcode o) := by
  rw [decode_opcode h]

theorem control_rd {w : Word} {c : Control} (h : (decode w).control? = some c) :
    (if c.regWrite then (decode w).rd.toNat else 0) = (decode w).rd.toNat := by
  obtain ⟨o, ho, hw, -⟩ := control_signals h
  have hf := opcode_format ho
  split
  · rfl
  · rename_i hn
    rw [hw, ← hf, Bool.not_eq_true] at hn
    have hd : (decode w).rd = if (decode w).format.writesRd then Word.rd w else 0 := rfl
    rw [hd, if_neg (by simp [hn])]
    rfl

theorem control_transfer {w : Word} {c : Control} (h : (decode w).control? = some c) {r : Reg}
    (hr : r ≠ 0) (hread : (decode w).rs1 = r ∨ (decode w).rs2 = r) :
    c.isTransfer = (decode w).usesInDecode := by
  obtain ⟨o, ho, -, -, -, hb, hj, -⟩ := control_signals h
  have hf := opcode_format ho
  rw [Control.isTransfer, hb, hj, usesInDecode, ho]
  cases o <;> try rfl
  have h1 : (decode w).rs1 = if (decode w).format.readsRs1 then Word.rs1 w else 0 := rfl
  have h2 : (decode w).rs2 = if (decode w).format.readsRs2 then Word.rs2 w else 0 := rfl
  rw [h1, h2, hf] at hread
  rcases hread with h0 | h0 <;> exact absurd h0.symm hr

theorem control_ok_iff {d : Instruction} {c : Control} :
    d.control = .ok c ↔ d.control? = some c := by
  unfold control
  cases d.control? <;> simp

theorem control_error_iff {d : Instruction} :
    d.control = .error (.illegalInstruction d.raw) ↔ d.control? = none := by
  unfold control
  cases d.control? <;> simp

end Instruction

end FiveStage
