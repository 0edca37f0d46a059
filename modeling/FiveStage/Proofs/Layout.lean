import Mathlib.Algebra.Group.Nat.Defs
import Mathlib.Algebra.Group.Int.Defs
import FiveStage.Isa.Encoding

/-!
# Packing and taking apart

Taking a word apart undoes packing, for every immediate that its format has
room for, and packing undoes taking apart. Each field stands at one place of
the word, and an immediate that is cut into pieces is put together again from
all of them.
-/

set_option autoImplicit false

namespace FiveStage

namespace Format

def hasFunct3 : Format → Bool
  | r | i | s | b => true
  | u | j | none => false

def hasFunct7 : Format → Bool
  | r => true
  | _ => false

/-- Whether a format has room for an immediate. One without an immediate leaves
it out, whatever it is. -/
def Represents (f : Format) (imm : Word) : Prop :=
  match f with
  | i | s => -2 ^ 11 ≤ imm.toInt ∧ imm.toInt < 2 ^ 11
  | b => -2 ^ 12 ≤ imm.toInt ∧ imm.toInt < 2 ^ 12 ∧ imm.toInt % 2 = 0
  | u => imm.toInt % 2 ^ 12 = 0
  | j => -2 ^ 20 ≤ imm.toInt ∧ imm.toInt < 2 ^ 20 ∧ imm.toInt % 2 = 0
  | r | none => True

/-- A run of bits that a word and the immediate in it have in common. -/
structure Piece where
  place : Nat
  start : Nat
  length : Nat

def pieces : Format → List Piece
  | i => [⟨20, 0, 12⟩]
  | s => [⟨25, 5, 7⟩, ⟨7, 0, 5⟩]
  | b => [⟨31, 12, 1⟩, ⟨7, 11, 1⟩, ⟨25, 5, 6⟩, ⟨8, 1, 4⟩]
  | u => [⟨12, 12, 20⟩]
  | j => [⟨31, 20, 1⟩, ⟨12, 12, 8⟩, ⟨20, 11, 1⟩, ⟨21, 1, 10⟩]
  | r | none => []

end Format

/-- Whether taking a word apart shows the fields of `d` that its format has, and
zero for the registers and the immediate that it has not. -/
structure Word.Shows (w : Word) (d : Instruction) : Prop where
  opcode : (decode w).opcode = d.opcode
  format : (decode w).format = d.format
  rd : (decode w).rd = if d.format.writesRd then d.rd else 0
  rs1 : (decode w).rs1 = if d.format.readsRs1 then d.rs1 else 0
  rs2 : (decode w).rs2 = if d.format.readsRs2 then d.rs2 else 0
  funct3 : d.format.hasFunct3 = true → (decode w).funct3 = d.funct3
  funct7 : d.format.hasFunct7 = true → (decode w).funct7 = d.funct7
  imm : (decode w).imm = if d.format = .r then 0 else d.imm

theorem extract_signExtend {n : Nat} (x : BitVec n) {start len : Nat} (h : start + len ≤ n)
    (hn : n ≤ 32) : (x.signExtend 32).extractLsb' start len = x.extractLsb' start len := by
  ext i hi
  simp only [BitVec.getElem_extractLsb', BitVec.getLsbD_signExtend, show start + i < n by omega,
    show start + i < 32 by omega, decide_true, Bool.true_and, if_true]

theorem signExtend_extract (v : Word) {n : Nat} (hn : n < 32) (low : -2 ^ n ≤ v.toInt)
    (high : v.toInt < 2 ^ n) : (v.extractLsb' 0 (n + 1)).signExtend 32 = v := by
  apply BitVec.eq_of_toInt_eq
  rw [BitVec.toInt_signExtend_of_le hn, BitVec.toInt_extractLsb', Nat.shiftRight_zero]
  have hbits : (v.toNat : Int).bmod (2 ^ (n + 1)) = v.toInt.bmod (2 ^ (n + 1)) := by
    rw [BitVec.toInt_eq_toNat_bmod, Int.bmod_bmod_of_dvd (Nat.pow_dvd_pow 2 hn)]
  rw [hbits]
  apply Int.bmod_eq_of_le
  · rw [Nat.pow_succ]
    push_cast
    omega
  · rw [Nat.pow_succ]
    push_cast
    omega

theorem extract_zero_iff (v : Word) {n : Nat} (hn : n ≤ 32) :
    v.extractLsb' 0 n = 0#n ↔ v.toInt % 2 ^ n = 0 := by
  have hdvd : ((2 ^ n : Nat) : Int) ∣ ((2 ^ 32 : Nat) : Int) :=
    Int.natCast_dvd_natCast.mpr (Nat.pow_dvd_pow 2 hn)
  have hmod : v.toInt % ((2 ^ n : Nat) : Int) = (v.toNat % 2 ^ n : Nat) := by
    rw [BitVec.toInt_eq_toNat_bmod, ← Int.emod_emod_of_dvd _ hdvd, Int.bmod_emod,
      Int.emod_emod_of_dvd _ hdvd, Int.natCast_emod]
  rw [← BitVec.toNat_inj, BitVec.extractLsb'_toNat, Nat.shiftRight_zero, BitVec.toNat_ofNat,
    Nat.zero_mod, ← Int.natCast_inj, ← hmod]
  push_cast
  rfl

theorem extract_multiples {u v : Word} {n : Nat} (hn : n ≤ 32) (hu : u.toInt % 2 ^ n = 0)
    (hv : v.toInt % 2 ^ n = 0) : u.extractLsb' 0 n = v.extractLsb' 0 n := by
  rw [(extract_zero_iff u hn).mpr hu, (extract_zero_iff v hn).mpr hv]

theorem eq_of_low_bits {u v : Word} {n : Nat} (hn : n < 32)
    (hu : -2 ^ n ≤ u.toInt ∧ u.toInt < 2 ^ n) (hv : -2 ^ n ≤ v.toInt ∧ v.toInt < 2 ^ n)
    (h : u.extractLsb' 0 (n + 1) = v.extractLsb' 0 (n + 1)) : u = v := by
  rw [← signExtend_extract u hn hu.1 hu.2, ← signExtend_extract v hn hv.1 hv.2, h]

theorem extract_join {u v : Word} {k n : Nat} (high : u.extractLsb' n k = v.extractLsb' n k)
    (low : u.extractLsb' 0 n = v.extractLsb' 0 n) :
    u.extractLsb' 0 (k + n) = v.extractLsb' 0 (k + n) := by
  have hn : n = 0 + n := (Nat.zero_add n).symm
  rw [← BitVec.extractLsb'_append_extractLsb'_eq_extractLsb' hn,
    ← BitVec.extractLsb'_append_extractLsb'_eq_extractLsb' hn, high, low]

section Packed
variable {d : Instruction} {w : Word}

theorem encode_opcode (h : d.encode? = some w) : Word.opcode w = d.opcode := by
  unfold Instruction.encode? at h
  cases hf : d.format
  all_goals simp only [hf, Option.some.injEq, reduceCtorEq] at h
  all_goals
    subst h
    exact BitVec.extractLsb'_append_eq_right

theorem encode_fields (h : d.encode? = some w) :
    (d.format.writesRd = true → Word.rd w = d.rd) ∧
      (d.format.readsRs1 = true → Word.rs1 w = d.rs1) ∧
      (d.format.readsRs2 = true → Word.rs2 w = d.rs2) ∧
      (d.format.hasFunct3 = true → Word.funct3 w = d.funct3) ∧
      (d.format.hasFunct7 = true → Word.funct7 w = d.funct7) := by
  unfold Instruction.encode? at h
  cases hf : d.format
  all_goals simp only [hf, Option.some.injEq, reduceCtorEq] at h
  all_goals
    subst h
    simp only [Format.writesRd, Format.readsRs1, Format.readsRs2, Format.hasFunct3,
      Format.hasFunct7, Bool.false_eq_true, false_imp_iff, true_imp_iff, and_true, true_and]
    and_intros
  all_goals
    refine (BitVec.extractLsb'_append_eq_of_le (by decide)).trans ?_
    simp (disch := decide) only [BitVec.extractLsb'_append_eq_of_le,
      BitVec.extractLsb'_append_eq_of_add_le, BitVec.extractLsb'_eq_self, Nat.reduceSub]

theorem encode_pieces (h : d.encode? = some w) :
    ∀ p ∈ d.format.pieces, w.extractLsb' p.place p.length = d.imm.extractLsb' p.start p.length := by
  unfold Instruction.encode? at h
  cases hf : d.format
  all_goals simp only [hf, Option.some.injEq, reduceCtorEq] at h
  all_goals
    subst h
    simp only [Format.pieces, List.forall_mem_cons, List.not_mem_nil, false_imp_iff,
      implies_true, and_true]
  all_goals
    and_intros
  all_goals
    refine (BitVec.extractLsb'_append_eq_of_le (by decide)).trans ?_
    simp (disch := decide) only [BitVec.extractLsb'_append_eq_of_le,
      BitVec.extractLsb'_append_eq_of_add_le, BitVec.extractLsb'_eq_self, Nat.reduceSub]

end Packed

theorem imm_pieces (w : Word) (f : Format) :
    ∀ p ∈ f.pieces, (Word.imm w f).extractLsb' p.start p.length = w.extractLsb' p.place p.length := by
  cases f
  all_goals
    simp only [Format.pieces, List.forall_mem_cons, List.not_mem_nil, false_imp_iff,
      implies_true, and_true, Word.imm, Word.immI, Word.immS, Word.immB, Word.immU, Word.immJ]
  case u => exact (BitVec.extractLsb'_append_eq_of_le (by decide)).trans BitVec.extractLsb'_eq_self
  all_goals
    and_intros
  all_goals
    rw [extract_signExtend _ (by decide) (by decide)]
    simp (disch := decide) only [BitVec.extractLsb'_append_eq_of_le,
      BitVec.extractLsb'_append_eq_of_add_le, BitVec.extractLsb'_eq_self, Nat.reduceSub]

theorem signExtend_range {n : Nat} (x : BitVec (n + 1)) (hn : n < 32) :
    -2 ^ n ≤ (x.signExtend 32).toInt ∧ (x.signExtend 32).toInt < 2 ^ n := by
  rw [BitVec.toInt_signExtend_of_le hn]
  have hlow := BitVec.le_toInt x
  have hhigh := BitVec.toInt_lt (x := x)
  rw [Nat.add_sub_cancel] at hlow hhigh
  exact ⟨hlow, hhigh⟩

theorem imm_represents (w : Word) (f : Format) : f.Represents (Word.imm w f) := by
  cases f with
  | r | none => trivial
  | i | s => exact signExtend_range (n := 11) _ (by decide)
  | b =>
    obtain ⟨low, high⟩ := signExtend_range (n := 12) _ (by decide)
    refine ⟨low, high, (extract_zero_iff _ (n := 1) (by decide)).mp ?_⟩
    exact (extract_signExtend _ (by decide) (by decide)).trans BitVec.extractLsb'_append_eq_right
  | u =>
    exact (extract_zero_iff _ (n := 12) (by decide)).mp BitVec.extractLsb'_append_eq_right
  | j =>
    obtain ⟨low, high⟩ := signExtend_range (n := 20) _ (by decide)
    refine ⟨low, high, (extract_zero_iff _ (n := 1) (by decide)).mp ?_⟩
    exact (extract_signExtend _ (by decide) (by decide)).trans BitVec.extractLsb'_append_eq_right

/-- What a format represents is known from the pieces that it has. -/
theorem Format.Represents.ext {f : Format} {u v : Word} (hf : f.pieces ≠ [])
    (hu : f.Represents u) (hv : f.Represents v)
    (h : ∀ p ∈ f.pieces, u.extractLsb' p.start p.length = v.extractLsb' p.start p.length) :
    u = v := by
  cases f
  all_goals
    simp only [pieces, List.forall_mem_cons, List.not_mem_nil, false_imp_iff, implies_true,
      and_true] at h
  case r => exact absurd rfl hf
  case none => exact absurd rfl hf
  case i => exact eq_of_low_bits (n := 11) (by decide) hu hv h
  case s =>
    have hall := extract_join h.1 h.2
    exact eq_of_low_bits (n := 11) (by decide) hu hv hall
  case b =>
    obtain ⟨h12, h11, h5, h1⟩ := h
    have h0 := extract_multiples (n := 1) (by decide) hu.2.2 hv.2.2
    have hall := extract_join h12 (extract_join h11 (extract_join h5 (extract_join h1 h0)))
    exact eq_of_low_bits (n := 12) (by decide) ⟨hu.1, hu.2.1⟩ ⟨hv.1, hv.2.1⟩ hall
  case u =>
    have hall := extract_join h (extract_multiples (n := 12) (by decide) hu hv)
    rwa [BitVec.extractLsb'_eq_self, BitVec.extractLsb'_eq_self] at hall
  case j =>
    obtain ⟨h20, h12, h11, h1⟩ := h
    have h0 := extract_multiples (n := 1) (by decide) hu.2.2 hv.2.2
    have hall := extract_join h20 (extract_join h12 (extract_join h11 (extract_join h1 h0)))
    exact eq_of_low_bits (n := 20) (by decide) ⟨hu.1, hu.2.1⟩ ⟨hv.1, hv.2.1⟩ hall

theorem encode_shows {d : Instruction} (format : d.format = Format.ofBits d.opcode)
    (hr : d.format.Represents d.imm) {w : Word} (h : d.encode? = some w) : w.Shows d := by
  obtain ⟨hrd, hrs1, hrs2, hfunct3, hfunct7⟩ := encode_fields h
  have hop : (decode w).opcode = d.opcode := encode_opcode h
  have hformat : Format.ofBits (decode w).opcode = d.format := by rw [hop, format]
  have himm : Word.imm w d.format = if d.format = .r then 0 else d.imm := by
    by_cases hp : d.format.pieces = []
    · cases hf : d.format with
      | r => rfl
      | none => simp [Instruction.encode?, hf] at h
      | _ => simp [hf, Format.pieces] at hp
    · have hne : d.format ≠ .r := fun hf => hp (by rw [hf]; rfl)
      rw [if_neg hne]
      exact Format.Represents.ext hp (imm_represents w _) hr fun p hmem =>
        (imm_pieces w _ p hmem).trans (encode_pieces h p hmem)
  constructor
  case opcode => exact hop
  case format => exact hformat
  case rd => exact ite_congr (by rw [← hformat]; rfl) hrd fun _ => rfl
  case rs1 => exact ite_congr (by rw [← hformat]; rfl) hrs1 fun _ => rfl
  case rs2 => exact ite_congr (by rw [← hformat]; rfl) hrs2 fun _ => rfl
  case funct3 => exact hfunct3
  case funct7 => exact hfunct7
  case imm =>
    rw [← himm, ← hformat]
    rfl

theorem encode_decode (w raw : Word) (hf : (decode w).format ≠ .none) :
    ({ decode w with raw := raw } : Instruction).encode? = some w := by
  have hp : ∀ p ∈ (decode w).format.pieces,
      (decode w).imm.extractLsb' p.start p.length = w.extractLsb' p.place p.length :=
    imm_pieces w _
  have hrd : (decode w).rd = if (decode w).format.writesRd then Word.rd w else 0 := rfl
  have hrs1 : (decode w).rs1 = if (decode w).format.readsRs1 then Word.rs1 w else 0 := rfl
  have hrs2 : (decode w).rs2 = if (decode w).format.readsRs2 then Word.rs2 w else 0 := rfl
  have hop : (decode w).opcode = w.extractLsb' 0 7 := rfl
  have hfunct3 : (decode w).funct3 = w.extractLsb' 12 3 := rfl
  have hfunct7 : (decode w).funct7 = w.extractLsb' 25 7 := rfl
  unfold Instruction.encode?
  cases hformat : (decode w).format
  case none => exact absurd hformat hf
  all_goals
    simp only [hformat, Format.pieces, List.forall_mem_cons, List.not_mem_nil, false_imp_iff,
      implies_true, and_true] at hp
    simp only [hformat, Format.writesRd, Format.readsRs1, Format.readsRs2, if_true] at hrd hrs1 hrs2
    simp only [hp, hrd, hrs1, hrs2, hop, hfunct3, hfunct7, Word.rd, Word.rs1, Word.rs2]
    simp (disch := decide) only [BitVec.extractLsb'_append_extractLsb'_eq_extractLsb']
  all_goals exact congrArg some BitVec.extractLsb'_eq_self

def Instruction.SameFields (d e : Instruction) : Prop :=
  d.opcode = e.opcode ∧ d.rd = e.rd ∧ d.rs1 = e.rs1 ∧ d.rs2 = e.rs2 ∧ d.funct3 = e.funct3 ∧
    d.funct7 = e.funct7 ∧ d.imm = e.imm

/-- For every opcode that has a format. The word itself, which an instruction
keeps beside its fields, plays no part in packing. -/
theorem encode_decode_inverse :
    (∀ d : Instruction, d.format = Format.ofBits d.opcode → d.format ≠ .none →
      d.format.Represents d.imm → ∃ w, d.encode? = some w ∧ w.Shows d) ∧
    (∀ w : Word, (decode w).format ≠ .none →
      (∀ raw, ({ decode w with raw := raw } : Instruction).encode? = some w) ∧
        (decode w).format.Represents (decode w).imm) ∧
    ∀ v w : Word, (decode v).format ≠ .none → (decode w).format ≠ .none →
      (decode v).SameFields (decode w) → v = w := by
  refine ⟨fun d format hf hr => ?_, fun w hf => ⟨fun raw => encode_decode w raw hf,
    imm_represents w _⟩, fun v w hv hw same => ?_⟩
  · obtain ⟨w, hw⟩ : ∃ w, d.encode? = some w := by
      unfold Instruction.encode?
      cases hd : d.format
      case none => exact absurd hd hf
      all_goals exact ⟨_, rfl⟩
    exact ⟨w, hw, encode_shows format hr hw⟩
  · obtain ⟨hop, hrd, hrs1, hrs2, hfunct3, hfunct7, himm⟩ := same
    have hformat : (decode v).format = (decode w).format := congrArg Format.ofBits hop
    have hfields : ({ decode v with raw := 0 } : Instruction) = { decode w with raw := 0 } := by
      rw [Instruction.mk.injEq]
      exact ⟨rfl, hop, hformat, hrd, hrs1, hrs2, hfunct3, hfunct7, himm⟩
    have hpacked := congrArg Instruction.encode? hfields
    rw [encode_decode v 0 hv, encode_decode w 0 hw] at hpacked
    exact Option.some.inj hpacked

theorem encode_decode_inverse_branch :
    ∃ w, Instruction.encode? ⟨0, 0x63, .b, 0, 5, 6, 5, 0, -2732⟩ = some w ∧ w = 0xd462da63 ∧
      w.Shows ⟨0, 0x63, .b, 0, 5, 6, 5, 0, -2732⟩ := by
  obtain ⟨w, hw, hs⟩ := encode_decode_inverse.1 ⟨0, 0x63, .b, 0, 5, 6, 5, 0, -2732⟩ rfl (by decide)
    ⟨by decide, by decide, by decide⟩
  exact ⟨w, hw, Option.some.inj (hw.symm.trans (by decide)), hs⟩

end FiveStage
