import FiveStage.Proofs.Assembling
import FiveStage.Proofs.AssemblyText

/-!
# What a disassembled word tells

The text of a legal word tells the word, since the text shows the line and the
line is read back; only fences share a text. Every legal word is named. Some
words are named although they are not legal: these are the shifts, the `jalr`
and the fences whose function field is reserved, and no others.
-/

set_option autoImplicit false

namespace FiveStage

namespace Operation

def mnemonics : List String :=
  table.map Prod.fst

theorem mem_mnemonics {m : String} {o : Operation} (h : table.lookup m = some o) :
    m ∈ mnemonics := by
  obtain ⟨before, after, htable, -⟩ := List.lookup_eq_some_iff.mp h
  rw [mnemonics, htable, List.map_append]
  exact List.mem_append_right _ List.mem_cons_self

end Operation

namespace Assembly

theorem ofImmediate_cases (d : Instruction) :
    d.raw = Word.nop ∧ ofImmediate d = bare "nop" ∨
      (ofImmediate d).mnemonic ∈ Operation.mnemonics := by
  unfold ofImmediate
  split
  case h_1 =>
    split
    · rename_i hnop
      exact .inl ⟨hnop, rfl⟩
    · exact .inr (Operation.mem_mnemonics rfl)
  case h_6 =>
    split
    · exact .inr (Operation.mem_mnemonics rfl)
    · exact .inr (Operation.mem_mnemonics rfl)
  all_goals exact .inr (Operation.mem_mnemonics rfl)

theorem ofInstruction?_cases {d : Instruction} {a : Assembly} (h : ofInstruction? d = some a) :
    a.mnemonic ∈ Operation.mnemonics ∨ d.opcode? = some .miscMem ∧ a = bare "fence" ∨
      d.raw = Word.nop ∧ a = bare "nop" ∨ d.raw = Word.ecall ∧ a = bare "ecall" ∨
      d.raw = Word.ebreak ∧ a = bare "ebreak" := by
  unfold ofInstruction? at h
  cases ho : d.opcode? with
  | none =>
    rw [ho] at h
    cases h
  | some o =>
    rw [ho] at h
    cases o with
    | op =>
      obtain ⟨op, hop, rfl⟩ := Option.map_eq_some_iff.mp h
      exact .inl (Operation.mem_mnemonics (Operation.lookup_register hop))
    | opImm =>
      cases h
      rcases ofImmediate_cases d with hnop | hoperands
      · exact .inr (.inr (.inl hnop))
      · exact .inl hoperands
    | load =>
      obtain ⟨width, hwidth, rfl⟩ := Option.map_eq_some_iff.mp h
      exact .inl (Operation.mem_mnemonics (Operation.lookup_load _ _ hwidth))
    | store =>
      obtain ⟨width, hwidth, rfl⟩ := Option.map_eq_some_iff.mp h
      exact .inl (Operation.mem_mnemonics (Operation.lookup_store _ _ hwidth))
    | branch =>
      obtain ⟨c, hc, rfl⟩ := Option.map_eq_some_iff.mp h
      exact .inl (Operation.mem_mnemonics (Operation.lookup_branch _ _ hc))
    | lui | auipc | jal | jalr =>
      cases h
      exact .inl (Operation.mem_mnemonics rfl)
    | miscMem =>
      cases h
      exact .inr (.inl ⟨rfl, rfl⟩)
    | system =>
      simp only at h
      split at h
      · rename_i hecall
        cases h
        exact .inr (.inr (.inr (.inl ⟨hecall, rfl⟩)))
      · split at h
        · rename_i hebreak
          cases h
          exact .inr (.inr (.inr (.inr ⟨hebreak, rfl⟩)))
        · cases h

theorem blank_notMem_ofWord (w : Word) : ' ' ∉ (ofWord w).mnemonic.toList := by
  have hoperands : ∀ m ∈ Operation.mnemonics, ' ' ∉ m.toList := by decide
  unfold ofWord
  cases h : ofInstruction? (decode w) with
  | none => exact (by decide : ' ' ∉ "unknown".toList)
  | some a =>
    rcases ofInstruction?_cases h with hm | ⟨-, rfl⟩ | ⟨-, rfl⟩ | ⟨-, rfl⟩ | ⟨-, rfl⟩
    · exact hoperands _ hm
    all_goals
      simp only [Option.getD_some, mnemonic]
      decide

theorem ofWord_eq_unknown_iff {w v : Word} :
    ofWord w = unknown v ↔ ofInstruction? (decode w) = none ∧ v = w := by
  have hoperands : "unknown" ∉ Operation.mnemonics := by decide
  unfold ofWord
  cases h : ofInstruction? (decode w) with
  | none => simp [eq_comm]
  | some a =>
    refine ⟨fun ha => ?_, fun ha => absurd ha.1 (Option.some_ne_none a)⟩
    rw [Option.getD_some] at ha
    subst ha
    rcases ofInstruction?_cases h with hm | ⟨-, hne⟩ | ⟨-, hne⟩ | ⟨-, hne⟩ | ⟨-, hne⟩
    · exact absurd hm hoperands
    all_goals cases hne

theorem ofWord_eq_bare {w : Word} {m : String} (hm : m ∉ Operation.mnemonics)
    (h : ofWord w = bare m) :
    (decode w).opcode? = some .miscMem ∧ m = "fence" ∨ w = Word.nop ∧ m = "nop" ∨
      w = Word.ecall ∧ m = "ecall" ∨ w = Word.ebreak ∧ m = "ebreak" := by
  unfold ofWord at h
  cases hd : ofInstruction? (decode w) with
  | none =>
    rw [hd] at h
    cases h
  | some a =>
    rw [hd, Option.getD_some] at h
    subst h
    rcases ofInstruction?_cases hd with hoperands | hbare
    · exact absurd hoperands hm
    · simp only [bare.injEq] at hbare
      exact hbare

theorem ofWord_eq_nop_iff {w : Word} : ofWord w = bare "nop" ↔ w = Word.nop := by
  constructor
  · intro h
    rcases ofWord_eq_bare (by decide) h with ⟨-, hm⟩ | ⟨hw, -⟩ | ⟨-, hm⟩ | ⟨-, hm⟩
    case inr.inl => exact hw
    all_goals exact absurd hm (by decide)
  · rintro rfl
    decide

theorem ofWord_eq_fence_iff {w : Word} :
    ofWord w = bare "fence" ↔ (decode w).opcode? = some .miscMem := by
  constructor
  · intro h
    rcases ofWord_eq_bare (by decide) h with ⟨ho, -⟩ | ⟨-, hm⟩ | ⟨-, hm⟩ | ⟨-, hm⟩
    case inl => exact ho
    all_goals exact absurd hm (by decide)
  · intro ho
    rw [ofWord, ofInstruction?, ho]
    rfl

end Assembly

/-- A shift, a `jalr` or a fence but for a function field that is reserved. -/
def Word.Reserved (w : Word) : Prop :=
  match (decode w).opcode? with
  | some .opImm =>
    Word.funct3 w = 1 ∧ Word.funct7 w ≠ 0 ∨
      Word.funct3 w = 5 ∧ Word.funct7 w ≠ 0 ∧ Word.funct7 w ≠ 0x20
  | some .jalr | some .miscMem => Word.funct3 w ≠ 0
  | _ => False

theorem AluOp.ofImmediate?_eq_none_iff {funct3 : BitVec 3} {funct7 : BitVec 7} :
    ofImmediate? funct3 funct7 = none ↔
      funct3 = 1 ∧ funct7 ≠ 0 ∨ funct3 = 5 ∧ funct7 ≠ 0 ∧ funct7 ≠ 0x20 := by
  have h3 := funct3.isLt
  simp only [← BitVec.toNat_inj, ne_eq, BitVec.ofNat_eq_ofNat, BitVec.toNat_ofNat, Nat.reducePow,
    Nat.reduceMod]
  unfold ofImmediate?
  split
  case h_10 => grind
  all_goals
    simp only [reduceCtorEq, false_iff]
    omega

namespace Assembly

theorem ofInstruction?_eq_none_iff {w : Word} :
    ofInstruction? (decode w) = none ↔ (decode w).control? = none ∧ ¬w.Reserved := by
  have hfunct3 : (decode w).funct3 = Word.funct3 w := rfl
  unfold ofInstruction? Instruction.control? Word.Reserved
  cases ho : (decode w).opcode? with
  | none => simp
  | some o =>
    cases o with
    | op | load | store | branch => simp
    | lui | auipc | jal => simp
    | opImm =>
      simp only [reduceCtorEq, false_iff, Option.map_eq_none_iff, AluOp.ofImmediate?_eq_none_iff]
      exact fun h => h.2 h.1
    | jalr | miscMem => simp [hfunct3]
    | system => by_cases hecall : (decode w).raw = Word.ecall <;> simp [hecall]

end Assembly

theorem Word.Reserved.control? {w : Word} (h : w.Reserved) : (decode w).control? = none := by
  unfold Word.Reserved at h
  unfold Instruction.control?
  cases ho : (decode w).opcode? with
  | none => rfl
  | some o =>
    rw [ho] at h
    cases o with
    | opImm => exact Option.map_eq_none_iff.mpr (AluOp.ofImmediate?_eq_none_iff.mpr h)
    | jalr | miscMem => exact if_neg h
    | _ => exact absurd h id

theorem disassemble_eq_iff {w : Word} {a : Assembly} (ha : ' ' ∉ a.mnemonic.toList) :
    disassemble w = a.text ↔ Assembly.ofWord w = a :=
  ⟨Assembly.text_inj (Assembly.blank_notMem_ofWord w) ha, congrArg Assembly.text⟩

theorem disassemble_eq_unknown_iff {v w : Word} :
    disassemble w = "unknown (" ++ Text.hex8 v.toNat ++ ")" ↔
      ((decode w).control? = none ∧ ¬w.Reserved) ∧ v = w := by
  have hblank : ' ' ∉ (Assembly.unknown v).mnemonic.toList :=
    (by decide : ' ' ∉ "unknown".toList)
  rw [← Assembly.ofInstruction?_eq_none_iff, ← Assembly.ofWord_eq_unknown_iff,
    ← disassemble_eq_iff hblank]
  rfl

namespace Word

def IsFence (w : Word) : Prop :=
  opcode w = Opcode.miscMem.bits ∧ funct3 w = 0

theorem IsFence.opcode? {w : Word} (h : w.IsFence) : (decode w).opcode? = some .miscMem := by
  rw [← Opcode.ofBits?_bits .miscMem, ← h.1]
  rfl

theorem IsFence.control? {w : Word} (h : w.IsFence) : (decode w).control? = some {} := by
  rw [Instruction.control?, h.opcode?]
  exact if_pos h.2

theorem IsFence.fields {w : Word} (h : w.IsFence) :
    (decode w).rd = 0 ∧ (decode w).rs1 = 0 ∧ (decode w).rs2 = 0 ∧ (decode w).imm = 0 := by
  rw [Instruction.decode_opcode h.opcode?]
  exact ⟨rfl, rfl, rfl, rfl⟩

theorem isFence_of_control? {w : Word} {c : Control} (ho : (decode w).opcode? = some .miscMem)
    (hc : (decode w).control? = some c) : w.IsFence := by
  rw [Instruction.control?, ho] at hc
  exact ⟨(Opcode.bits_of_ofBits? ho).symm, (Option.ite_none_right_eq_some.mp hc).1⟩

end Word

namespace Assembly

theorem eq_or_fence {v w : Word} {c d : Control} (hc : (decode v).control? = some c)
    (hd : (decode w).control? = some d) (h : ofWord v = ofWord w) :
    v = w ∨ v.IsFence ∧ w.IsFence := by
  have hfence : (decode v).opcode? = some .miscMem ↔ (decode w).opcode? = some .miscMem := by
    rw [← ofWord_eq_fence_iff, ← ofWord_eq_fence_iff, h]
  -- a line is the line of two fences, or it is read back as either word
  by_cases hv : (decode v).opcode? = some .miscMem
  · exact .inr ⟨Word.isFence_of_control? hv hc, Word.isFence_of_control? (hfence.mp hv) hd⟩
  · have hw : (decode w).opcode? ≠ some .miscMem := fun hw => hv (hfence.mpr hw)
    have hread : some v = some w := by rw [← word?_ofWord hc hv, ← word?_ofWord hd hw, h]
    exact .inl (Option.some.inj hread)

end Assembly

/-- The text of a legal word tells the word. Fences share a text, and nothing
that the machine asks of a word tells them apart either. -/
theorem disassemble_faithful :
    (∀ (v w : Word) (c d : Control), (decode v).control = .ok c → (decode w).control = .ok d →
      disassemble v = disassemble w →
        (v = w ∨ v.IsFence ∧ w.IsFence) ∧ c = d ∧ (decode v).rd = (decode w).rd ∧
          (decode v).rs1 = (decode w).rs1 ∧ (decode v).rs2 = (decode w).rs2 ∧
          (decode v).imm = (decode w).imm) ∧
    (∀ w : Word, disassemble w = "nop" ↔ w = Word.nop) ∧
    ∀ (w : Word) (c : Control), (decode w).control = .ok c →
      ∀ v : Word, disassemble w ≠ "unknown (" ++ Text.hex8 v.toNat ++ ")" := by
  refine ⟨?_, ?_, ?_⟩
  · intro v w c d hv hw htext
    rw [Instruction.control_ok_iff] at hv hw
    have hline : Assembly.ofWord v = Assembly.ofWord w :=
      (disassemble_eq_iff (Assembly.blank_notMem_ofWord w)).mp htext
    have hwords := Assembly.eq_or_fence hv hw hline
    refine ⟨hwords, ?_⟩
    rcases hwords with rfl | ⟨hvfence, hwfence⟩
    · exact ⟨Option.some.inj (hv.symm.trans hw), rfl, rfl, rfl, rfl⟩
    · rw [hvfence.control?] at hv
      rw [hwfence.control?] at hw
      obtain ⟨hvrd, hvrs1, hvrs2, hvimm⟩ := hvfence.fields
      obtain ⟨hwrd, hwrs1, hwrs2, hwimm⟩ := hwfence.fields
      exact ⟨Option.some.inj (hv.symm.trans hw), hvrd.trans hwrd.symm, hvrs1.trans hwrs1.symm,
        hvrs2.trans hwrs2.symm, hvimm.trans hwimm.symm⟩
  · intro w
    rw [← Assembly.ofWord_eq_nop_iff]
    exact disassemble_eq_iff (a := .bare "nop") (by decide)
  · intro w c hc v hunknown
    obtain ⟨⟨hnone, -⟩, -⟩ := disassemble_eq_unknown_iff.mp hunknown
    rw [Instruction.control_ok_iff.mp hc] at hnone
    cases hnone

theorem disassemble_faithful_fences :
    disassemble 0x0ff0000f = disassemble 0x0330000f ∧
      (Word.IsFence 0x0ff0000f ∧ Word.IsFence 0x0330000f) ∧
      (decode 0x0ff0000f).imm = (decode 0x0330000f).imm ∧
      ∀ v : Word, disassemble 0x40c55533 ≠ "unknown (" ++ Text.hex8 v.toNat ++ ")" := by
  have htext : disassemble 0x0ff0000f = disassemble 0x0330000f := by decide
  obtain ⟨htold, -, hnamed⟩ := disassemble_faithful
  obtain ⟨hwords, -, -, -, -, himm⟩ := htold 0x0ff0000f 0x0330000f {} {} rfl rfl htext
  have hshift : (decode 0x40c55533).control = .ok { regWrite := true, alu := .sra, b := .reg2 } :=
    rfl
  exact ⟨htext, hwords.resolve_left (by decide), himm, hnamed _ _ hshift⟩

/-- A word is shown as unknown if it is neither legal nor reserved, and no
reserved word is legal. -/
theorem disassemble_unknown_iff (w : Word) :
    (disassemble w = "unknown (" ++ Text.hex8 w.toNat ++ ")" ↔
        (decode w).control = .error (.illegalInstruction w) ∧ ¬w.Reserved) ∧
      (w.Reserved → (decode w).control = .error (.illegalInstruction w)) := by
  have hillegal : (decode w).control = .error (.illegalInstruction w) ↔
      (decode w).control? = none := Instruction.control_error_iff
  rw [hillegal, disassemble_eq_unknown_iff]
  exact ⟨and_iff_left rfl, Word.Reserved.control?⟩

theorem disassemble_unknown_iff_multiplication :
    disassemble 0x02c58533 = "unknown (0x02c58533)" ∧ Word.Reserved 0x02051513 ∧
      (decode 0x02051513).control = .error (.illegalInstruction 0x02051513) := by
  have htext : "unknown (" ++ Text.hex8 (0x02c58533 : Word).toNat ++ ")" =
      "unknown (0x02c58533)" := by decide
  have hreserved : Word.Reserved 0x02051513 := .inl ⟨by decide, by decide⟩
  obtain ⟨hunknown, -⟩ := disassemble_unknown_iff 0x02c58533
  obtain ⟨-, hillegal⟩ := disassemble_unknown_iff 0x02051513
  rw [htext] at hunknown
  exact ⟨hunknown.mpr ⟨rfl, fun h => h⟩, hreserved, hillegal hreserved⟩

/-- The shift is shown under the name of a legal one. -/
theorem disassemble_names_illegal :
    disassemble 0x02051513 = "slli a0, a0, 0" ∧
      (decode 0x02051513).control = .error (.illegalInstruction 0x02051513) ∧
      ¬∀ w : Word, disassemble w = "unknown (" ++ Text.hex8 w.toNat ++ ")" ↔
        (decode w).control = .error (.illegalInstruction w) := by
  have htext : disassemble 0x02051513 = "slli a0, a0, 0" := by decide +kernel
  have hcontrol : (decode 0x02051513).control = .error (.illegalInstruction 0x02051513) := rfl
  refine ⟨htext, hcontrol, fun hall => ?_⟩
  have hunknown := (hall 0x02051513).mpr hcontrol
  exact absurd (htext.symm.trans hunknown) (by decide +kernel)

end FiveStage
