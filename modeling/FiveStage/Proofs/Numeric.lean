import FiveStage.Isa.Control
import FiveStage.Proofs.Manual

/-!
# Words and numbers

The units of the machine work on words, the manual speaks of numbers. Every
field, immediate, operation and condition is the same in both.
-/

set_option autoImplicit false

namespace FiveStage

theorem ofInt_toNat (a : Word) : BitVec.ofInt 32 (a.toNat : Nat) = a := by
  rw [BitVec.ofInt_natCast, BitVec.ofNat_toNat, BitVec.setWidth_eq]

theorem toInt_signed (a : Word) : a.toInt = Manual.signed 32 a.toNat :=
  BitVec.toInt_eq_toNat_cond a

theorem toNat_append {n k : Nat} (x : BitVec n) (y : BitVec k) :
    (x ++ y).toNat = x.toNat * 2 ^ k + y.toNat := by
  rw [BitVec.toNat_append, ← Nat.shiftLeft_add_eq_or_of_lt y.isLt, Nat.shiftLeft_eq]

theorem toNat_extract (w : Word) (low n : Nat) :
    (w.extractLsb' low n).toNat = w.toNat / 2 ^ low % 2 ^ n := by
  rw [BitVec.extractLsb'_toNat, Nat.shiftRight_eq_div_pow]

theorem signExtend_signed {n : Nat} (x : BitVec n) :
    x.signExtend 32 = .ofInt 32 (Manual.signed n x.toNat) := by
  rw [BitVec.signExtend, BitVec.toInt_eq_toNat_cond]
  rfl

namespace Word

theorem opcode_toNat (w : Word) : (opcode w).toNat = Manual.opcode w := toNat_extract w 0 7

theorem rd_toNat (w : Word) : (rd w).toNat = Manual.rd w := toNat_extract w 7 5

theorem funct3_toNat (w : Word) : (funct3 w).toNat = Manual.funct3 w := toNat_extract w 12 3

theorem rs1_toNat (w : Word) : (rs1 w).toNat = Manual.rs1 w := toNat_extract w 15 5

theorem rs2_toNat (w : Word) : (rs2 w).toNat = Manual.rs2 w := toNat_extract w 20 5

theorem funct7_toNat (w : Word) : (funct7 w).toNat = Manual.funct7 w := toNat_extract w 25 7

theorem immI_signed (w : Word) : immI w = .ofInt 32 (Manual.immI w) := by
  rw [immI, signExtend_signed, toNat_extract]
  rfl

theorem immS_signed (w : Word) : immS w = .ofInt 32 (Manual.immS w) := by
  rw [immS, signExtend_signed, toNat_append, toNat_extract, toNat_extract]
  rfl

theorem immB_signed (w : Word) : immB w = .ofInt 32 (Manual.immB w) := by
  have h : ∀ a b c d : Nat, (((a * 2 ^ 1 + b) * 2 ^ 6 + c) * 2 ^ 4 + d) * 2 ^ 1 + 0 =
      a * 2 ^ 12 + b * 2 ^ 11 + c * 2 ^ 5 + d * 2 := by omega
  rw [immB, signExtend_signed]
  simp only [toNat_append, toNat_extract]
  exact congrArg (fun v => BitVec.ofInt 32 (Manual.signed 13 v)) (h _ _ _ _)

theorem immU_signed (w : Word) : immU w = .ofInt 32 (Manual.immU w) := by
  have h : (immU w).toNat = Manual.bits w 31 12 * 2 ^ 12 := by
    rw [immU, toNat_append, toNat_extract, BitVec.toNat_ofNat, Nat.zero_mod, Nat.add_zero]
    rfl
  rw [Manual.immU, ← h, ofInt_toNat]

theorem immJ_signed (w : Word) : immJ w = .ofInt 32 (Manual.immJ w) := by
  have h : ∀ a b c d : Nat, (((a * 2 ^ 8 + b) * 2 ^ 1 + c) * 2 ^ 10 + d) * 2 ^ 1 + 0 =
      a * 2 ^ 20 + b * 2 ^ 12 + c * 2 ^ 11 + d * 2 := by omega
  rw [immJ, signExtend_signed]
  simp only [toNat_append, toNat_extract]
  exact congrArg (fun v => BitVec.ofInt 32 (Manual.signed 21 v)) (h _ _ _ _)

end Word

theorem add_ofInt (a : Word) (i : Int) : a + .ofInt 32 i = .ofInt 32 (a.toNat + i) := by
  rw [BitVec.ofInt_add, ofInt_toNat]

theorem and_not_one (v : Word) : v &&& ~~~(1 : Word) = (v >>> 1) <<< 1 := by
  ext i hi
  cases i with
  | zero => simp
  | succ i =>
    have h1 : (1 : Word)[i + 1] = false := BitVec.getElem_one hi
    rw [BitVec.getElem_and, BitVec.getElem_not, h1]
    simp [BitVec.getLsbD_eq_getElem hi, Nat.add_comm 1 i]

theorem indirect_ofInt (a : Word) (i : Int) :
    Target.indirect a (.ofInt 32 i) = .ofInt 32 ((a.toNat + i) / 2 * 2) := by
  have h := (BitVec.ofInt 32 (a.toNat + i)).isLt
  apply BitVec.eq_of_toNat_eq
  rw [Target.indirect, add_ofInt, and_not_one, BitVec.toNat_shiftLeft, BitVec.toNat_ushiftRight,
    Nat.shiftLeft_eq, Nat.shiftRight_eq_div_pow]
  simp only [BitVec.toNat_ofInt] at h ⊢
  omega

namespace AluOp

def fields : AluOp → Nat × Bool
  | add => (0, false)
  | sub => (0, true)
  | sll => (1, false)
  | slt => (2, false)
  | sltu => (3, false)
  | xor => (4, false)
  | srl => (5, false)
  | sra => (5, true)
  | or => (6, false)
  | and => (7, false)

theorem apply_operate (op : AluOp) (a b : Word) :
    op.apply a b = .ofInt 32 (Manual.operate op.fields.1 op.fields.2 a.toNat b.toNat) := by
  have amount : (b.extractLsb' 0 5).toNat = b.toNat % 32 := by
    simp
  cases op with
  | add =>
    simp only [apply, fields, Manual.operate, Bool.false_eq_true, if_false]
    rw [BitVec.ofInt_add, ofInt_toNat, ofInt_toNat]
  | sub =>
    apply BitVec.eq_of_toNat_eq
    simp only [apply, fields, Manual.operate, if_true, BitVec.toNat_sub, BitVec.toNat_ofInt]
    omega
  | sll =>
    apply BitVec.eq_of_toNat_eq
    simp only [apply, fields, Manual.operate, amount]
    rw [BitVec.toNat_shiftLeft, Nat.shiftLeft_eq, BitVec.ofInt_natCast, BitVec.toNat_ofNat]
  | slt =>
    simp only [apply, fields, Manual.operate, BitVec.slt, toInt_signed, decide_eq_true_eq]
    split <;> rfl
  | sltu =>
    simp only [apply, fields, Manual.operate, BitVec.ult, decide_eq_true_eq]
    split <;> rfl
  | xor =>
    simp only [apply, fields, Manual.operate]
    rw [← BitVec.toNat_xor, ofInt_toNat]
  | srl =>
    simp only [apply, fields, Manual.operate, amount, Bool.false_eq_true, if_false]
    rw [← Nat.shiftRight_eq_div_pow, ← BitVec.toNat_ushiftRight, ofInt_toNat]
  | sra =>
    have h : (a.sshiftRight (b.toNat % 32)).toInt = a.toInt / 2 ^ (b.toNat % 32) := by
      rw [BitVec.toInt_sshiftRight, Int.shiftRight_eq_div_pow, Int.natCast_pow]
      rfl
    simp only [apply, fields, Manual.operate, amount, if_true]
    rw [← toInt_signed, ← h, BitVec.ofInt_toInt]
  | or =>
    simp only [apply, fields, Manual.operate]
    rw [← BitVec.toNat_or, ofInt_toNat]
  | and =>
    simp only [apply, fields, Manual.operate]
    rw [← BitVec.toNat_and, ofInt_toNat]

theorem ofRegister_fields (funct3 : BitVec 3) (funct7 : BitVec 7) :
    (ofRegister? funct3 funct7).map fields =
      if funct7.toNat = 0 || funct7.toNat = 0x20 && funct3.toNat ∈ [0, 5] then
        some (funct3.toNat, decide (funct7.toNat = 0x20))
      else none := by
  have h3 := funct3.isLt
  unfold ofRegister?
  split
  all_goals simp_all [fields]
  omega

theorem ofImmediate_fields (funct3 : BitVec 3) (funct7 : BitVec 7) :
    (ofImmediate? funct3 funct7).map fields =
      if funct3.toNat ∉ [1, 5] || funct3.toNat = 1 && funct7.toNat = 0
          || funct3.toNat = 5 && funct7.toNat ∈ [0, 0x20] then
        some (funct3.toNat, decide (funct3.toNat = 5) && decide (funct7.toNat = 0x20))
      else none := by
  have h3 := funct3.isLt
  unfold ofImmediate?
  split
  all_goals simp_all [fields]
  omega

end AluOp

namespace Condition

def code : Condition → Nat
  | eq => 0
  | ne => 1
  | lt => 4
  | ge => 5
  | ltu => 6
  | geu => 7

theorem holds_code (c : Condition) (a b : Word) :
    c.holds a b = Manual.holds c.code a.toNat b.toNat := by
  rw [Bool.eq_iff_iff]
  cases c with
  | eq => simp [holds, code, Manual.holds, BitVec.toNat_inj]
  | ne => simp [holds, code, Manual.holds, BitVec.toNat_inj]
  | lt => simp [holds, code, Manual.holds, BitVec.slt, toInt_signed]
  | ge => simp [holds, code, Manual.holds, BitVec.slt, toInt_signed]
  | ltu => simp [holds, code, Manual.holds, BitVec.ult]
  | geu => simp [holds, code, Manual.holds, BitVec.ult]

theorem ofCode_code (funct3 : BitVec 3) :
    (ofCode? funct3.toNat).map code =
      if funct3.toNat ∈ [0, 1, 4, 5, 6, 7] then some funct3.toNat else none := by
  revert funct3
  decide

end Condition

namespace Width

theorem ofLoad_size (funct3 : BitVec 3) :
    ((ofLoad? funct3).map fun (width, signed) => (width.size, signed)) =
      if funct3.toNat ∈ [0, 1, 2, 4, 5] then
        some (2 ^ (funct3.toNat % 4), decide (funct3.toNat < 4))
      else Option.none := by
  revert funct3
  decide

theorem ofStore_size (funct3 : BitVec 3) :
    (ofStore? funct3).map size =
      if funct3.toNat ∈ [0, 1, 2] then some (2 ^ funct3.toNat) else Option.none := by
  revert funct3
  decide

end Width

end FiveStage
