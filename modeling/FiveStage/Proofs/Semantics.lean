import FiveStage.Proofs.Numeric
import FiveStage.Proofs.Passage

/-!
# One instruction means what the manual says

Decode and execute accept exactly the words that the manual defines, and what
they hand on is the effect that it gives them, for every word, pc and register
file.
-/

set_option autoImplicit false

namespace FiveStage

open FiveStage.Sequential

def Core.holding (c : Core) (pc w : Word) : Core :=
  { c with
    ifId := { valid := true, pc := pc, inst := w }
    idEx := .bubble
    exMem := .bubble
    memWb := .bubble }

/-- What the later stages are asked to do for an instruction, and where fetch
is sent. -/
def Issue.effect (i : Issue) (e : ExMem) : Manual.Effect :=
  { write := if e.ctrl.regWrite && !e.ctrl.memRead then some (e.rd, e.alu) else none
    load :=
      if e.ctrl.regWrite && e.ctrl.memRead then
        some (e.rd, e.alu, e.ctrl.width.size, e.ctrl.signedLoad)
      else none
    store := if e.ctrl.memWrite then some (e.alu, e.ctrl.width.size, e.storeData) else none
    pc := if i.jump then i.target else e.pc + Word.instructionSize
    halts := e.ctrl.halt }

def Control.effect (c : Control) (d : Instruction) (pc rv1 rv2 : Word) : Manual.Effect :=
  (Issue.ofLegal pc d.raw d c rv1 rv2).effect
    { valid := true
      pc := pc
      inst := d.raw
      rd := d.rd.toNat
      alu := c.result pc d.imm rv1 rv2
      storeData := rv2
      ctrl := c }

theorem next_toNat (pc : Word) : pc + Word.instructionSize = .ofNat 32 (pc.toNat + 4) := by
  rw [BitVec.ofNat_add, BitVec.ofNat_toNat, BitVec.setWidth_eq]
  rfl

theorem Registers.read_field (regs : Registers) (r : Reg) :
    regs.read (.ofNat 5 r.toNat) = regs.read r := by
  rw [BitVec.ofNat_toNat, BitVec.setWidth_eq]

namespace Instruction

theorem opcode_bits {w : Word} {o : Opcode} (h : (decode w).opcode? = some o) :
    Manual.opcode w = o.bits.toNat := by
  rw [← Word.opcode_toNat, Opcode.bits_of_ofBits? h]
  rfl

theorem opcode_none {w : Word} (h : (decode w).opcode? = none) (o : Opcode) :
    Manual.opcode w ≠ o.bits.toNat := by
  intro hb
  rw [← Word.opcode_toNat] at hb
  have hw : Word.opcode w = o.bits := BitVec.eq_of_toNat_eq hb
  have hs : (decode w).opcode? = some o := by
    rw [← Opcode.ofBits?_bits o, ← hw]
    rfl
  exact absurd (h.symm.trans hs) nofun

theorem legal_none {w : Word} (h : (decode w).opcode? = none) : Manual.legal w = false := by
  have hn := opcode_none h
  unfold Manual.legal
  split <;> rename_i ho
  · exact absurd ho (hn .lui)
  · exact absurd ho (hn .auipc)
  · exact absurd ho (hn .jal)
  · exact absurd ho (hn .jalr)
  · exact absurd ho (hn .branch)
  · exact absurd ho (hn .load)
  · exact absurd ho (hn .store)
  · exact absurd ho (hn .opImm)
  · exact absurd ho (hn .op)
  · exact absurd ho (hn .miscMem)
  · exact absurd ho (hn .system)
  · rfl

/-- The signals lead to the effect that the manual gives the word. -/
def Means (w : Word) (c : Control) : Prop :=
  ∀ (pc : Word) (regs : Registers),
    c.effect (decode w) pc (regs.read (decode w).rs1) (regs.read (decode w).rs2) =
      Manual.effect w pc fun r => regs.read (.ofNat 5 r)

def Agrees (w : Word) : Prop :=
  match (decode w).control? with
  | none => Manual.legal w = false
  | some c => Manual.legal w = true ∧ Means w c

theorem Agrees.illegal {w : Word} (hc : (decode w).control? = none)
    (hl : Manual.legal w = false) : Agrees w := by
  unfold Agrees
  rw [hc]
  exact hl

theorem Agrees.legal {w : Word} {c : Control} (hc : (decode w).control? = some c)
    (hl : Manual.legal w = true) (hm : Means w c) : Agrees w := by
  unfold Agrees
  rw [hc]
  exact ⟨hl, hm⟩

theorem Agrees.guard {w : Word} {c : Control} {p : Prop} [Decidable p]
    (hc : (decode w).control? = if p then some c else none)
    (hl : Manual.legal w = true ↔ p) (hm : p → Means w c) : Agrees w := by
  by_cases hp : p
  · rw [if_pos hp] at hc
    exact .legal hc (hl.mpr hp) (hm hp)
  · rw [if_neg hp] at hc
    exact .illegal hc (Bool.eq_false_iff.mpr fun h => hp (hl.mp h))

/-- An opcode whose words are looked up in a table, when what the table holds
is known by a view `f` of its entries. -/
theorem Agrees.table {α β : Type} {w : Word} {entry : Option α} {signals : α → Control}
    {f : α → β} {b : β} {p : Prop} [Decidable p]
    (hc : (decode w).control? = entry.map signals)
    (hentry : entry.map f = if p then some b else none)
    (hl : Manual.legal w = true ↔ p)
    (hm : ∀ a, entry = some a → f a = b → Means w (signals a)) : Agrees w := by
  by_cases hp : p
  · rw [if_pos hp] at hentry
    obtain ⟨a, ha, hb⟩ := Option.map_eq_some_iff.mp hentry
    rw [ha] at hc
    exact .legal hc (hl.mpr hp) (hm a ha hb)
  · rw [if_neg hp, Option.map_eq_none_iff] at hentry
    rw [hentry] at hc
    exact .illegal hc (Bool.eq_false_iff.mpr fun h => hp (hl.mp h))

theorem effect_result {c : Control} {d : Instruction} {pc rv1 rv2 : Word}
    (hc : c = { regWrite := true, alu := c.alu, a := c.a, b := c.b }) :
    c.effect d pc rv1 rv2 =
      { write := some (d.rd.toNat, c.result pc d.imm rv1 rv2)
        pc := .ofNat 32 (pc.toNat + 4) } := by
  rw [← next_toNat, hc]
  rfl

theorem effect_transfer {c : Control} {d : Instruction} {pc rv1 rv2 : Word} {jump : Bool}
    {target : Word} (hr : c.memRead = false) (hw : c.memWrite = false)
    (ht : Issue.transfer pc d c rv1 rv2 = (jump, target)) :
    c.effect d pc rv1 rv2 =
      { write := if c.regWrite then some (d.rd.toNat, c.result pc d.imm rv1 rv2) else none
        pc := if jump then target else .ofNat 32 (pc.toNat + 4)
        halts := c.halt } := by
  unfold Control.effect Issue.effect Issue.ofLegal
  simp [ht, hr, hw, next_toNat]

section Opcodes
variable {w : Word}

theorem funct3_zero (w : Word) : Manual.funct3 w = 0 ↔ Word.funct3 w = 0 := by
  rw [← Word.funct3_toNat]
  exact BitVec.toNat_inj (y := 0)

theorem agrees_lui (ho : (decode w).opcode? = some .lui) : Agrees w := by
  have hc : (decode w).control? = some { regWrite := true, a := .zero } := by rw [control?, ho]
  have hb : Manual.opcode w = 0x37 := opcode_bits ho
  refine .legal hc (by simp only [Manual.legal, hb]) fun pc regs => ?_
  rw [decode_opcode ho, effect_result rfl]
  simp only [Manual.effect, hb, ← Word.immU_signed, ← Word.rd_toNat]
  simp [Control.result, OperandA.value, OperandB.value, AluOp.apply, Format.ofOpcode,
    Format.writesRd, Word.imm]

theorem agrees_auipc (ho : (decode w).opcode? = some .auipc) : Agrees w := by
  have hc : (decode w).control? = some { regWrite := true, a := .pc } := by rw [control?, ho]
  have hb : Manual.opcode w = 0x17 := opcode_bits ho
  refine .legal hc (by simp only [Manual.legal, hb]) fun pc regs => ?_
  rw [decode_opcode ho, effect_result rfl]
  simp only [Manual.effect, hb, ← add_ofInt, ← Word.immU_signed, ← Word.rd_toNat]
  rfl

theorem agrees_jal (ho : (decode w).opcode? = some .jal) : Agrees w := by
  have hc : (decode w).control? =
      some { regWrite := true, jump := true, a := .pc, b := .four } := by rw [control?, ho]
  have hb : Manual.opcode w = 0x6F := opcode_bits ho
  refine .legal hc (by simp only [Manual.legal, hb]) fun pc regs => ?_
  have ht : ∀ rv1 rv2, Issue.transfer pc (decode w)
      { regWrite := true, jump := true, a := .pc, b := .four } rv1 rv2 =
        (true, pc + Word.immJ w) := by
    intro rv1 rv2
    have himm : (decode w).imm = Word.immJ w := decode_imm ho
    simp [Issue.transfer, ho, himm, Target.relative]
  rw [effect_transfer rfl rfl (ht _ _), decode_opcode ho]
  simp only [Manual.effect, hb, ← add_ofInt, ← Word.immJ_signed, ← Word.rd_toNat, ← next_toNat]
  rfl

theorem agrees_jalr (ho : (decode w).opcode? = some .jalr) : Agrees w := by
  have hc : (decode w).control? = if Word.funct3 w = 0 then
      some { regWrite := true, jump := true, a := .pc, b := .four } else none := by
    rw [control?, ho]
    rfl
  have hb : Manual.opcode w = 0x67 := opcode_bits ho
  refine .guard hc (by simp [Manual.legal, hb, funct3_zero]) fun _ pc regs => ?_
  have ht : ∀ rv1 rv2, Issue.transfer pc (decode w)
      { regWrite := true, jump := true, a := .pc, b := .four } rv1 rv2 =
        (true, Target.indirect rv1 (Word.immI w)) := by
    intro rv1 rv2
    have himm : (decode w).imm = Word.immI w := decode_imm ho
    simp [Issue.transfer, ho, himm]
  rw [effect_transfer rfl rfl (ht _ _), decode_opcode ho]
  simp only [Manual.effect, hb, ← indirect_ofInt, ← Word.immI_signed, ← Word.rd_toNat,
    ← Word.rs1_toNat, Registers.read_field, ← next_toNat]
  rfl

theorem agrees_branch (ho : (decode w).opcode? = some .branch) : Agrees w := by
  have hc : (decode w).control? = (Condition.ofCode? (Word.funct3 w).toNat).map fun _ =>
      { branch := true, b := .reg2 } := by
    rw [control?, ho]
    rfl
  have hb : Manual.opcode w = 0x63 := opcode_bits ho
  have hl : Manual.legal w = true ↔ (Word.funct3 w).toNat ∈ [0, 1, 4, 5, 6, 7] := by
    simp only [Manual.legal, hb, decide_eq_true_eq, Word.funct3_toNat]
  refine .table hc (Condition.ofCode_code (Word.funct3 w)) hl fun cond hcond hcode pc regs => ?_
  have ht : ∀ rv1 rv2, Issue.transfer pc (decode w) { branch := true, b := .reg2 } rv1 rv2 =
      (cond.holds rv1 rv2, pc + Word.immB w) := by
    intro rv1 rv2
    have hf : (decode w).funct3 = Word.funct3 w := rfl
    have himm : (decode w).imm = Word.immB w := decode_imm ho
    simp [Issue.transfer, hf, hcond, himm, Target.relative]
  rw [Word.funct3_toNat] at hcode
  rw [effect_transfer rfl rfl (ht _ _), decode_opcode ho]
  simp only [Manual.effect, hb, ← add_ofInt, ← Word.immB_signed, ← Word.rs1_toNat,
    ← Word.rs2_toNat, Registers.read_field, ← hcode, ← Condition.holds_code, ← next_toNat]
  rfl

theorem agrees_load (ho : (decode w).opcode? = some .load) : Agrees w := by
  have hc : (decode w).control? = (Width.ofLoad? (Word.funct3 w)).map fun p =>
      { regWrite := true, memRead := true, width := p.1, signedLoad := p.2 } := by
    rw [control?, ho]
    rfl
  have hb : Manual.opcode w = 0x03 := opcode_bits ho
  have hl : Manual.legal w = true ↔ (Word.funct3 w).toNat ∈ [0, 1, 2, 4, 5] := by
    simp only [Manual.legal, hb, decide_eq_true_eq, Word.funct3_toNat]
  refine .table hc (Width.ofLoad_size (Word.funct3 w)) hl fun _ _ hsize pc regs => ?_
  obtain ⟨hbytes, hsigned⟩ := Prod.mk.inj hsize
  rw [Word.funct3_toNat] at hbytes hsigned
  rw [decode_opcode ho]
  simp only [Manual.effect, hb, ← add_ofInt, ← Word.immI_signed, ← Word.rd_toNat,
    ← Word.rs1_toNat, Registers.read_field, ← hbytes, ← hsigned, ← next_toNat]
  rfl

theorem agrees_store (ho : (decode w).opcode? = some .store) : Agrees w := by
  have hc : (decode w).control? = (Width.ofStore? (Word.funct3 w)).map fun width =>
      { memWrite := true, width := width } := by
    rw [control?, ho]
    rfl
  have hb : Manual.opcode w = 0x23 := opcode_bits ho
  have hl : Manual.legal w = true ↔ (Word.funct3 w).toNat ∈ [0, 1, 2] := by
    simp only [Manual.legal, hb, decide_eq_true_eq, Word.funct3_toNat]
  refine .table hc (Width.ofStore_size (Word.funct3 w)) hl fun _ _ hbytes pc regs => ?_
  rw [Word.funct3_toNat] at hbytes
  rw [decode_opcode ho]
  simp only [Manual.effect, hb, ← add_ofInt, ← Word.immS_signed, ← Word.rs1_toNat,
    ← Word.rs2_toNat, Registers.read_field, ← hbytes, ← next_toNat]
  rfl

theorem agrees_opImm (ho : (decode w).opcode? = some .opImm) : Agrees w := by
  have hc : (decode w).control? = (AluOp.ofImmediate? (Word.funct3 w) (Word.funct7 w)).map
      fun op => { regWrite := true, alu := op } := by
    rw [control?, ho]
    rfl
  have hb : Manual.opcode w = 0x13 := opcode_bits ho
  refine .table hc (AluOp.ofImmediate_fields (Word.funct3 w) (Word.funct7 w))
    (by simp only [Manual.legal, hb, Word.funct3_toNat, Word.funct7_toNat])
    fun op _ hfields pc regs => ?_
  have himm : (Word.immI w).toNat = (Manual.immI w % 2 ^ 32).toNat := by
    rw [Word.immI_signed, BitVec.toNat_ofInt]
    rfl
  have hresult := op.apply_operate (regs.read (Word.rs1 w)) (Word.immI w)
  rw [hfields, himm, Word.funct3_toNat, Word.funct7_toNat] at hresult
  rw [decode_opcode ho, effect_result rfl]
  simp only [Manual.effect, hb, ← Word.rd_toNat, ← Word.rs1_toNat, Registers.read_field,
    ← hresult]
  rfl

theorem agrees_op (ho : (decode w).opcode? = some .op) : Agrees w := by
  have hc : (decode w).control? = (AluOp.ofRegister? (Word.funct3 w) (Word.funct7 w)).map
      fun op => { regWrite := true, alu := op, b := .reg2 } := by
    rw [control?, ho]
    rfl
  have hb : Manual.opcode w = 0x33 := opcode_bits ho
  refine .table hc (AluOp.ofRegister_fields (Word.funct3 w) (Word.funct7 w))
    (by simp only [Manual.legal, hb, Word.funct3_toNat, Word.funct7_toNat])
    fun op _ hfields pc regs => ?_
  have hresult := op.apply_operate (regs.read (Word.rs1 w)) (regs.read (Word.rs2 w))
  rw [hfields, Word.funct3_toNat, Word.funct7_toNat] at hresult
  rw [decode_opcode ho, effect_result rfl]
  simp only [Manual.effect, hb, ← Word.rd_toNat, ← Word.rs1_toNat, ← Word.rs2_toNat,
    Registers.read_field, ← hresult]
  rfl

theorem agrees_miscMem (ho : (decode w).opcode? = some .miscMem) : Agrees w := by
  have hc : (decode w).control? = if Word.funct3 w = 0 then some {} else none := by
    rw [control?, ho]
    rfl
  have hb : Manual.opcode w = 0x0F := opcode_bits ho
  refine .guard hc (by simp [Manual.legal, hb, funct3_zero]) fun _ pc regs => ?_
  simp only [Manual.effect, hb, ← next_toNat]
  rfl

theorem agrees_system (ho : (decode w).opcode? = some .system) : Agrees w := by
  have hc : (decode w).control? =
      if w = Word.ecall ∨ w = Word.ebreak then some { halt := true } else none := by
    rw [control?, ho]
    rfl
  have hb : Manual.opcode w = 0x73 := opcode_bits ho
  have hl : Manual.legal w = true ↔ w = Word.ecall ∨ w = Word.ebreak := by
    simp only [Manual.legal, hb, Bool.or_eq_true, decide_eq_true_eq]
    exact Iff.rfl
  refine .guard hc hl fun _ pc regs => ?_
  simp only [Manual.effect, hb, ← next_toNat]
  rfl

theorem agrees (w : Word) : Agrees w := by
  cases ho : (decode w).opcode? with
  | none =>
    have hc : (decode w).control? = none := by rw [control?, ho]
    exact .illegal hc (legal_none ho)
  | some o =>
    cases o with
    | lui => exact agrees_lui ho
    | auipc => exact agrees_auipc ho
    | jal => exact agrees_jal ho
    | jalr => exact agrees_jalr ho
    | branch => exact agrees_branch ho
    | load => exact agrees_load ho
    | store => exact agrees_store ho
    | opImm => exact agrees_opImm ho
    | op => exact agrees_op ho
    | miscMem => exact agrees_miscMem ho
    | system => exact agrees_system ho

end Opcodes

end Instruction

/-- A core with a word in its first latch and nothing in the others. A word
that is no instruction is refused by decode; for any other, decode and execute
together hand on its effect. -/
theorem executes_manual (c : Core) (pc w : Word) :
    let held := c.holding pc w
    let entry := held.issue.entry.execute held.exMem held.memWb
    match (decode w).control with
    | .error t =>
      Manual.legal w = false ∧ t = .illegalInstruction w ∧
        held.issue = Issue.trapped pc w (.illegalInstruction w)
    | .ok _ =>
      Manual.legal w = true ∧ entry.live = true ∧
        held.issue.effect entry = Manual.effect w pc fun r => c.regs.read (.ofNat 5 r) := by
  intro held entry
  have hagrees := Instruction.agrees w
  let s : State := ⟨c.regs, pc, Memory.zeros 0 0⟩
  have hissue : held.issue = s.issue held.ifId := rfl
  have hentry : entry = s.executed held.ifId := rfl
  unfold Instruction.Agrees at hagrees
  unfold Instruction.control
  cases hc : (decode w).control? with
  | none =>
    rw [hc] at hagrees
    refine ⟨hagrees, rfl, ?_⟩
    have hctrl : (decode w).control = .error (.illegalInstruction w) := by
      simp only [Instruction.control, hc]
      rfl
    rw [hissue]
    simp [State.issue, Issue.ofSlot, held, Core.holding, hctrl]
  | some ctrl =>
    rw [hc] at hagrees
    obtain ⟨hlegal, hmeans⟩ := hagrees
    have hx := State.executed_legal (s := s) (f := held.ifId) rfl hc
    have hi := State.issue_legal (s := s) (f := held.ifId) rfl hc
    refine ⟨hlegal, by rw [hentry, hx]; rfl, ?_⟩
    rw [hissue, hentry, hi, hx, ← hmeans pc c.regs]
    rfl

end FiveStage
