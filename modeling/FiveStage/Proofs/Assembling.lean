import FiveStage.Isa.Assembler
import FiveStage.Proofs.Layout
import FiveStage.Proofs.Legal

/-!
# Legal words are read back from their lines

The mnemonic of a legal word stands for the opcode and the function fields that
the word has, and its operands are the other fields. Together they are all that
packing asks for, so that the line of a legal word is read as that word, unless
it is a fence.
-/

set_option autoImplicit false

namespace FiveStage

theorem Word.Shows.encode? {w : Word} {d : Instruction} (h : w.Shows d)
    (hf : d.format ≠ .none) : d.encode? = some w := by
  have hformat : (decode w).format ≠ .none := by rwa [h.format]
  rw [← encode_decode w 0 hformat]
  unfold Instruction.encode?
  cases hd : d.format
  case none => exact absurd hd hf
  all_goals
    simp [hd, h.format, h.opcode, h.rd, h.rs1, h.rs2, h.imm, h.funct3, h.funct7,
      Format.writesRd, Format.readsRs1, Format.readsRs2, Format.hasFunct3, Format.hasFunct7]

namespace Instruction

section Registers
variable {w : Word} {o : Opcode}

theorem rd_eq_zero (ho : (decode w).opcode? = some o) (h : (Format.ofOpcode o).writesRd = false) :
    (decode w).rd = 0 := by
  rw [decode_opcode ho]
  exact if_neg (Bool.eq_false_iff.mp h)

theorem rs1_eq_zero (ho : (decode w).opcode? = some o) (h : (Format.ofOpcode o).readsRs1 = false) :
    (decode w).rs1 = 0 := by
  rw [decode_opcode ho]
  exact if_neg (Bool.eq_false_iff.mp h)

theorem rs2_eq_zero (ho : (decode w).opcode? = some o) (h : (Format.ofOpcode o).readsRs2 = false) :
    (decode w).rs2 = 0 := by
  rw [decode_opcode ho]
  exact if_neg (Bool.eq_false_iff.mp h)

end Registers

end Instruction

namespace Operation

theorem lookup_register {funct3 : BitVec 3} {funct7 : BitVec 7} {op : AluOp}
    (h : AluOp.ofRegister? funct3 funct7 = some op) :
    table.lookup op.mnemonic = some ⟨.op, funct3, funct7⟩ := by
  have hfunct3 (n : Nat) (hn : funct3.toNat = n) : funct3 = .ofNat 3 n := by simp [← hn]
  have hfunct7 (n : Nat) (hn : funct7.toNat = n) : funct7 = .ofNat 7 n := by simp [← hn]
  unfold AluOp.ofRegister? at h
  split at h
  case h_11 => cases h
  all_goals
    cases h
    rename_i h3 h7
    rw [hfunct3 _ h3, hfunct7 _ h7]
    rfl

theorem lookup_load (funct3 : BitVec 3) : ∀ width ∈ Width.ofLoad? funct3,
    table.lookup (Width.loadMnemonic width) = some ⟨.load, funct3, 0⟩ := by
  revert funct3
  decide

theorem lookup_store (funct3 : BitVec 3) : ∀ width ∈ Width.ofStore? funct3,
    table.lookup width.storeMnemonic = some ⟨.store, funct3, 0⟩ := by
  revert funct3
  decide

theorem lookup_branch (funct3 : BitVec 3) : ∀ c ∈ Condition.ofCode? funct3.toNat,
    table.lookup c.mnemonic = some ⟨.branch, funct3, 0⟩ := by
  revert funct3
  decide

theorem encode?_instruction {w : Word} {o : Opcode} {funct3 : BitVec 3} {funct7 : BitVec 7}
    {n : Int} (ho : (decode w).opcode? = some o) (hf : Format.ofOpcode o ≠ .none)
    (hfunct3 : (Format.ofOpcode o).hasFunct3 = true → (decode w).funct3 = funct3)
    (hfunct7 : (Format.ofOpcode o).hasFunct7 = true → (decode w).funct7 = funct7)
    (himm : Format.ofOpcode o ≠ .r → BitVec.ofInt 32 (n + 32 * funct7.toNat) = (decode w).imm) :
    (instruction ⟨o, funct3, funct7⟩ (decode w).rd (decode w).rs1 (decode w).rs2 n).encode? =
      some w := by
  have hformat : (decode w).format = Format.ofOpcode o := Instruction.opcode_format ho
  refine Word.Shows.encode? ?_ hf
  constructor
  case opcode => exact (Opcode.bits_of_ofBits? ho).symm
  case format => exact hformat
  case rd =>
    split
    · rfl
    · rename_i hno
      exact Instruction.rd_eq_zero ho (Bool.eq_false_iff.mpr hno)
  case rs1 =>
    split
    · rfl
    · rename_i hno
      exact Instruction.rs1_eq_zero ho (Bool.eq_false_iff.mpr hno)
  case rs2 =>
    split
    · rfl
    · rename_i hno
      exact Instruction.rs2_eq_zero ho (Bool.eq_false_iff.mpr hno)
  case funct3 => exact hfunct3
  case funct7 => exact hfunct7
  case imm =>
    split
    · rename_i hr
      rw [Instruction.decode_imm ho, show Format.ofOpcode o = .r from hr]
      rfl
    · rename_i hr
      exact (himm hr).symm

end Operation

theorem ofInt_upper {v : Word} (h : v.extractLsb' 0 12 = 0#12) :
    BitVec.ofInt 32 (4096 * (v >>> 12).toNat) = v := by
  have hlow : v.toNat % 4096 = 0 := by
    have hbits := congrArg BitVec.toNat h
    rwa [BitVec.extractLsb'_toNat, Nat.shiftRight_zero] at hbits
  have hnumber : (4096 * (v >>> 12).toNat : Int) = v.toNat := by
    rw [BitVec.toNat_ushiftRight, Nat.shiftRight_eq_div_pow]
    omega
  rw [hnumber, BitVec.ofInt_natCast, BitVec.ofNat_toNat, BitVec.setWidth_eq]

theorem ofInt_shift {w : Word} (h : (Word.funct7 w).toNat < 64) :
    BitVec.ofInt 32 (((Word.immI w).extractLsb' 0 5).toNat + 32 * (Word.funct7 w).toNat) =
      Word.immI w := by
  have hamount : ((Word.immI w).extractLsb' 0 5).toNat = (w.extractLsb' 20 12).toNat % 32 := by
    rw [Word.immI, extract_signExtend _ (by decide) (by decide), BitVec.extractLsb'_toNat,
      Nat.shiftRight_zero]
  have hupper : (Word.funct7 w).toNat = (w.extractLsb' 20 12).toNat / 32 := by
    rw [Word.funct7, BitVec.extractLsb'_toNat, BitVec.extractLsb'_toNat, Nat.shiftRight_eq_div_pow,
      Nat.shiftRight_eq_div_pow]
    omega
  have hsign : (w.extractLsb' 20 12).msb = false := by
    rw [BitVec.msb_eq_false_iff_two_mul_lt]
    omega
  have hnumber : (((Word.immI w).extractLsb' 0 5).toNat + 32 * (Word.funct7 w).toNat : Int) =
      (w.extractLsb' 20 12).toNat := by omega
  rw [hnumber, BitVec.ofInt_natCast, BitVec.ofNat_toNat, Word.immI,
    BitVec.signExtend_eq_setWidth_of_msb_false hsign]

namespace Assembly

theorem word?_of_instruction {a : Assembly} {d : Instruction} (h : a.instruction? = some d) :
    a.word? = d.encode? := by
  cases a with
  | bare m => cases h
  | unknown w => cases h
  | _ => exact (congrArg (Option.bind · Instruction.encode?) h).trans rfl

section Opcodes
variable {w : Word}

theorem word?_open {a : Assembly} {o : Opcode} {n : Int} (funct3 : BitVec 3)
    (ho : (decode w).opcode? = some o)
    (hread : a.instruction? =
      some (Operation.instruction ⟨o, funct3, 0⟩ (decode w).rd (decode w).rs1 (decode w).rs2 n))
    (hf : Format.ofOpcode o ≠ .none) (hclosed : (Format.ofOpcode o).hasFunct7 = false)
    (hfunct3 : (Format.ofOpcode o).hasFunct3 = true → (decode w).funct3 = funct3)
    (himm : BitVec.ofInt 32 n = (decode w).imm) : a.word? = some w := by
  rw [word?_of_instruction hread]
  refine Operation.encode?_instruction ho hf hfunct3 (fun h => ?_) fun _ => ?_
  · exact absurd (hclosed.symm.trans h) Bool.false_ne_true
  · rw [← himm]
    simp

theorem word?_registers {op : AluOp} (ho : (decode w).opcode? = some .op)
    (h : AluOp.ofRegister? (decode w).funct3 (decode w).funct7 = some op) :
    (registers op.mnemonic (decode w).rd (decode w).rs1 (decode w).rs2).word? = some w := by
  have hread : (registers op.mnemonic (decode w).rd (decode w).rs1 (decode w).rs2).instruction? =
      some (Operation.instruction ⟨.op, (decode w).funct3, (decode w).funct7⟩ (decode w).rd
        (decode w).rs1 (decode w).rs2 0) := by
    rw [instruction?, Operation.lookup_register h]
    rfl
  rw [word?_of_instruction hread]
  exact Operation.encode?_instruction ho (by decide) (fun _ => rfl) (fun _ => rfl)
    fun hr => absurd rfl hr

theorem word?_plain {m : String} (ho : (decode w).opcode? = some .opImm)
    (hm : Operation.table.lookup m = some ⟨.opImm, (decode w).funct3, 0⟩) :
    (immediate m (decode w).rd (decode w).rs1 (decode w).imm.toInt).word? = some w := by
  refine word?_open _ ho ?_ (by decide) rfl (fun _ => rfl) BitVec.ofInt_toInt
  rw [instruction?, hm, Instruction.rs2_eq_zero ho rfl]
  rfl

/-- The line of a shift shows the amount alone. The rest of the immediate is the
function field that its mnemonic stands for. -/
theorem word?_shift {m : String} (ho : (decode w).opcode? = some .opImm)
    (h7 : (decode w).funct7.toNat < 64)
    (hm : Operation.table.lookup m = some ⟨.opImm, (decode w).funct3, (decode w).funct7⟩) :
    (immediate m (decode w).rd (decode w).rs1
      ((decode w).imm.extractLsb' 0 5).toNat).word? = some w := by
  have himm : (decode w).imm = Word.immI w := Instruction.decode_imm ho
  have hread : (immediate m (decode w).rd (decode w).rs1
      ((decode w).imm.extractLsb' 0 5).toNat).instruction? =
      some (Operation.instruction ⟨.opImm, (decode w).funct3, (decode w).funct7⟩ (decode w).rd
        (decode w).rs1 (decode w).rs2 ((decode w).imm.extractLsb' 0 5).toNat) := by
    rw [instruction?, hm, Instruction.rs2_eq_zero ho rfl]
    rfl
  rw [word?_of_instruction hread]
  refine Operation.encode?_instruction ho (by decide) (fun _ => rfl) (fun _ => rfl) fun _ => ?_
  rw [himm]
  exact ofInt_shift h7

theorem word?_ofImmediate {op : AluOp} (ho : (decode w).opcode? = some .opImm)
    (h : AluOp.ofImmediate? (decode w).funct3 (decode w).funct7 = some op) :
    (ofImmediate (decode w)).word? = some w := by
  have hplain (m : String) (n : Nat) (h3 : (decode w).funct3.toNat = n)
      (hm : Operation.table.lookup m = some ⟨.opImm, .ofNat 3 n, 0⟩) :
      (immediate m (decode w).rd (decode w).rs1 (decode w).imm.toInt).word? = some w := by
    refine word?_plain ho (hm.trans ?_)
    simp [← h3]
  have hshift (m : String) (n k : Nat) (h3 : (decode w).funct3.toNat = n)
      (h7 : (decode w).funct7.toNat = k) (hk : k < 64)
      (hm : Operation.table.lookup m = some ⟨.opImm, .ofNat 3 n, .ofNat 7 k⟩) :
      (immediate m (decode w).rd (decode w).rs1
        ((decode w).imm.extractLsb' 0 5).toNat).word? = some w := by
    refine word?_shift ho (h7 ▸ hk) (hm.trans ?_)
    simp [← h3, ← h7]
  unfold AluOp.ofImmediate? at h
  unfold ofImmediate
  split at h
  case h_1 h3 =>
    simp only [h3]
    split
    · rename_i hnop
      rw [show w = Word.nop from hnop]
      rfl
    · exact hplain _ _ h3 rfl
  case h_3 h3 | h_4 h3 | h_5 h3 | h_8 h3 | h_9 h3 =>
    simp only [h3]
    exact hplain _ _ h3 rfl
  case h_2 h3 h7 =>
    simp only [h3]
    exact hshift _ _ _ h3 h7 (by decide) rfl
  case h_6 h3 h7 =>
    have hne : (decode w).funct7 ≠ 0x20 := by
      intro h20
      rw [h20] at h7
      exact absurd h7 (by decide)
    simp only [h3, if_neg hne]
    exact hshift _ _ _ h3 h7 (by decide) rfl
  case h_7 h3 h7 =>
    simp only [h3, if_pos (BitVec.eq_of_toNat_eq (y := 0x20) h7)]
    exact hshift _ _ _ h3 h7 (by decide) rfl
  case h_10 => cases h

theorem word?_load {width : Width × Bool} (ho : (decode w).opcode? = some .load)
    (h : Width.ofLoad? (decode w).funct3 = some width) :
    (displaced (Width.loadMnemonic width) (decode w).rd (decode w).imm.toInt
      (decode w).rs1).word? = some w := by
  refine word?_open _ ho ?_ (by decide) rfl (fun _ => rfl) BitVec.ofInt_toInt
  rw [instruction?, Operation.lookup_load _ _ h, Instruction.rs2_eq_zero ho rfl]
  rfl

theorem word?_store {width : Width} (ho : (decode w).opcode? = some .store)
    (h : Width.ofStore? (decode w).funct3 = some width) :
    (displaced width.storeMnemonic (decode w).rs2 (decode w).imm.toInt
      (decode w).rs1).word? = some w := by
  refine word?_open _ ho ?_ (by decide) rfl (fun _ => rfl) BitVec.ofInt_toInt
  rw [instruction?, Operation.lookup_store _ _ h, Instruction.rd_eq_zero ho rfl]
  rfl

theorem word?_branch {c : Condition} (ho : (decode w).opcode? = some .branch)
    (h : Condition.ofCode? (decode w).funct3.toNat = some c) :
    (immediate c.mnemonic (decode w).rs1 (decode w).rs2 (decode w).imm.toInt).word? = some w := by
  refine word?_open _ ho ?_ (by decide) rfl (fun _ => rfl) BitVec.ofInt_toInt
  rw [instruction?, Operation.lookup_branch _ _ h, Instruction.rd_eq_zero ho rfl]
  rfl

theorem word?_jalr (ho : (decode w).opcode? = some .jalr) (h : (decode w).funct3 = 0) :
    (displaced "jalr" (decode w).rd (decode w).imm.toInt (decode w).rs1).word? = some w := by
  refine word?_open 0 ho ?_ (by decide) rfl (fun _ => h) BitVec.ofInt_toInt
  rw [Instruction.rs2_eq_zero ho rfl]
  rfl

theorem word?_jal (ho : (decode w).opcode? = some .jal) :
    (far "jal" (decode w).rd (decode w).imm.toInt).word? = some w := by
  refine word?_open 0 ho ?_ (by decide) rfl (fun h => absurd h (by decide))
    BitVec.ofInt_toInt
  rw [Instruction.rs1_eq_zero ho rfl, Instruction.rs2_eq_zero ho rfl]
  rfl

theorem word?_upper {m : String} {o : Opcode} (ho : (decode w).opcode? = some o)
    (hu : Format.ofOpcode o = .u) (hm : Operation.table.lookup m = some ⟨o, 0, 0⟩) :
    (upper m (decode w).rd ((decode w).imm >>> 12).toNat).word? = some w := by
  have hrs1 : (decode w).rs1 = 0 := Instruction.rs1_eq_zero ho (by rw [hu]; rfl)
  have hrs2 : (decode w).rs2 = 0 := Instruction.rs2_eq_zero ho (by rw [hu]; rfl)
  have hlow : (decode w).imm.extractLsb' 0 12 = 0#12 := by
    rw [Instruction.decode_imm ho, hu]
    exact (extract_zero_iff _ (by decide)).mpr (imm_represents w .u)
  refine word?_open 0 ho ?_ (by simp [hu]) (by rw [hu]; rfl)
    (fun h => absurd h (by rw [hu]; decide)) (ofInt_upper hlow)
  rw [instruction?, hm, hrs1, hrs2]
  rfl

end Opcodes

theorem word?_ofWord {w : Word} {c : Control} (hc : (decode w).control? = some c)
    (hfence : (decode w).opcode? ≠ some .miscMem) : (ofWord w).word? = some w := by
  unfold Instruction.control? at hc
  unfold ofWord ofInstruction?
  cases ho : (decode w).opcode? with
  | none =>
    rw [ho] at hc
    cases hc
  | some o =>
    rw [ho] at hc
    cases o with
    | lui => exact word?_upper ho rfl rfl
    | auipc => exact word?_upper ho rfl rfl
    | jal => exact word?_jal ho
    | jalr =>
      obtain ⟨h3, -⟩ := Option.ite_none_right_eq_some.mp hc
      exact word?_jalr ho h3
    | branch =>
      obtain ⟨cond, hcond, -⟩ := Option.map_eq_some_iff.mp hc
      simp only [hcond]
      exact word?_branch ho hcond
    | load =>
      obtain ⟨width, hwidth, -⟩ := Option.map_eq_some_iff.mp hc
      simp only [hwidth]
      exact word?_load ho hwidth
    | store =>
      obtain ⟨width, hwidth, -⟩ := Option.map_eq_some_iff.mp hc
      simp only [hwidth]
      exact word?_store ho hwidth
    | opImm =>
      obtain ⟨op, hop, -⟩ := Option.map_eq_some_iff.mp hc
      exact word?_ofImmediate ho hop
    | op =>
      obtain ⟨op, hop, -⟩ := Option.map_eq_some_iff.mp hc
      simp only [hop]
      exact word?_registers ho hop
    | miscMem => exact absurd ho hfence
    | system =>
      obtain ⟨hw, -⟩ := Option.ite_none_right_eq_some.mp hc
      rcases hw with hecall | hebreak
      · rw [show w = Word.ecall from hecall]
        rfl
      · rw [show w = Word.ebreak from hebreak]
        rfl

example : (immediate "srai" Reg.a0 Reg.a0 3).word? = some 0x40355513 := by decide

end Assembly

end FiveStage
