import Mathlib.Algebra.BigOperators.Ring.Finset
import FiveStage.Memory
import FiveStage.Proofs.Calls
import FiveStage.Proofs.Numeric

/-!
# Memory as a map of bytes

To its users a block of memory is a byte at each of a range of addresses, which
are natural numbers and do not wrap. A call that changes memory replaces the
bytes of its own range or none at all, and a read gives the value of the bytes
at its address, whatever calls they came from.
-/

set_option autoImplicit false

namespace FiveStage

abbrev ByteMap := Nat → Byte

def Within (base size a n : Nat) : Prop :=
  base ≤ a ∧ a + n ≤ base + size

instance (base size a n : Nat) : Decidable (Within base size a n) :=
  inferInstanceAs (Decidable (_ ∧ _))

inductive Memory.Call where
  | load (a : Word) (bytes : List Byte)
  | zero (a : Word) (n : Nat)
  | store (a : Word) (width : Width) (v : Word)

inductive Memory.Answer where
  | fitted (yes : Bool)
  | stored (trap : Option Trap)

namespace Memory

def call (m : Memory) : Call → Memory × Answer
  | .load a bytes => ((m.place a.toNat bytes).1, .fitted (m.place a.toNat bytes).2)
  | .zero a n => ((m.fill a.toNat n 0).1, .fitted (m.fill a.toNat n 0).2)
  | .store a width v => ((m.store a width v).1, .stored (m.store a width v).2)

end Memory

namespace ByteMap

def put (M : ByteMap) (a n : Nat) (f : Nat → Byte) : ByteMap :=
  fun x => if a ≤ x ∧ x < a + n then f (x - a) else M x

def value (M : ByteMap) (a n : Nat) : Nat :=
  ∑ i ∈ Finset.range n, (M (a + i)).toNat * 256 ^ i

def extended (n : Nat) (signed : Bool) (v : Nat) : Word :=
  if signed then .ofInt 32 (Manual.signed (8 * n) v) else .ofNat 32 v

def call (base size : Nat) (M : ByteMap) : Memory.Call → ByteMap × Memory.Answer
  | .load a bytes =>
    if Within base size a.toNat bytes.length then
      (M.put a.toNat bytes.length fun i => bytes.getD i 0, .fitted true)
    else (M, .fitted false)
  | .zero a n =>
    if Within base size a.toNat n then (M.put a.toNat n fun _ => 0, .fitted true)
    else (M, .fitted false)
  | .store a width v =>
    if width = .none then (M, .stored none)
    else if a.toNat % width.size ≠ 0 then (M, .stored (some (.storeAddressMisaligned a)))
    else if Within base size a.toNat width.size then
      (M.put a.toNat width.size fun i => .ofNat 8 (v.toNat / 256 ^ i), .stored none)
    else (M, .stored (some (.storeAccessFault a)))

end ByteMap

theorem Word.bytes_getD (w : Word) {n i : Nat} (hi : i < n) :
    (bytes w n).getD i 0 = .ofNat 8 (w.toNat / 256 ^ i) := by
  have hbyte : (bytes w n).getD i 0 = w.extractLsb' (8 * i) 8 := by simp [bytes, hi]
  apply BitVec.eq_of_toNat_eq
  rw [hbyte, toNat_extract, BitVec.toNat_ofNat, Nat.pow_mul]

theorem littleEndian_lt (bs : List Byte) : littleEndian bs < 256 ^ bs.length := by
  induction bs with
  | nil => simp [littleEndian]
  | cons b bs ih =>
    have hb := b.isLt
    simp only [littleEndian, List.length_cons, Nat.pow_succ]
    omega

theorem littleEndian_range (f : Nat → Byte) (n : Nat) :
    littleEndian ((List.range n).map f) = ∑ i ∈ Finset.range n, (f i).toNat * 256 ^ i := by
  induction n generalizing f with
  | zero => rfl
  | succ n ih =>
    rw [List.range_succ_eq_map, List.map_cons, List.map_map, littleEndian, ih,
      Finset.sum_range_succ', Finset.mul_sum, Nat.pow_zero, Nat.mul_one, Nat.add_comm]
    congr 1
    apply Finset.sum_congr rfl
    intro i _
    rw [Function.comp_apply, Nat.pow_succ, Nat.mul_left_comm, Nat.mul_comm 256]

namespace ByteMap

theorem put_congr (M : ByteMap) (a : Nat) {n : Nat} {f g : Nat → Byte}
    (h : ∀ i < n, f i = g i) : M.put a n f = M.put a n g := by
  ext1 x
  unfold put
  split
  · exact h _ (by omega)
  · rfl

theorem value_lt (M : ByteMap) (a n : Nat) : M.value a n < 256 ^ n := by
  have h := littleEndian_lt ((List.range n).map fun i => M (a + i))
  rwa [littleEndian_range, List.length_map, List.length_range] at h

end ByteMap

theorem Memory.extend_extended {width : Width} (hw : width ≠ .none) (signed : Bool) {v : Nat}
    (hv : v < 256 ^ width.size) : extend width signed v = ByteMap.extended width.size signed v := by
  have hofNat : ∀ n, v < 2 ^ n → (BitVec.ofNat n v).toNat = v := by
    intro n hn
    rw [BitVec.toNat_ofNat, Nat.mod_eq_of_lt hn]
  cases signed with
  | false => cases width <;> rfl
  | true =>
    cases width with
    | none => exact absurd rfl hw
    | byte =>
      show (BitVec.ofNat 8 v).signExtend 32 = .ofInt 32 (Manual.signed 8 v)
      rw [signExtend_signed, hofNat 8 hv]
    | half =>
      show (BitVec.ofNat 16 v).signExtend 32 = .ofInt 32 (Manual.signed 16 v)
      rw [signExtend_signed, hofNat 16 hv]
    | word =>
      show BitVec.ofNat 32 v = .ofInt 32 (Manual.signed 32 v)
      have h := toInt_signed (.ofNat 32 v)
      rw [hofNat 32 hv] at h
      rw [← h, BitVec.ofInt_toInt]

/-- Whether a block has the bytes of a map at the addresses from `base` on. -/
structure Memory.Holds (m : Memory) (base size : Nat) (M : ByteMap) : Prop where
  base_eq : m.base.toNat = base
  size_eq : m.size = size
  byte : ∀ x, m.byte? x = if base ≤ x ∧ x < base + size then some (M x) else none

namespace Memory.Holds

variable {m : Memory} {base size : Nat} {M : ByteMap}

theorem zeros (base : Word) (size : Nat) :
    (Memory.zeros base size).Holds base.toNat size fun _ => 0 :=
  ⟨rfl, Array.size_replicate, byte?_zeros base size⟩

theorem fits (h : m.Holds base size M) (a n : Nat) :
    m.fits a n = true ↔ Within base size a n := by
  simp [Memory.fits, Within, h.base_eq, h.size_eq]

theorem write (h : m.Holds base size M) (a : Nat) (bs : List Byte) :
    (m.write a bs).Holds base size (M.put a bs.length fun i => bs.getD i 0) where
  base_eq := by rw [base_write, h.base_eq]
  size_eq := by rw [size_write, h.size_eq]
  byte x := by
    rw [byte?_write, h.byte, ByteMap.put]
    by_cases hx : a ≤ x ∧ x < a + bs.length
    · rw [if_pos hx, if_pos hx]
      split <;> rfl
    · rw [if_neg hx, if_neg hx]

theorem fillWith (h : m.Holds base size M) (a n : Nat) (b : Byte) :
    (Memory.fillWith b m a n).Holds base size (M.put a n fun _ => b) where
  base_eq := by rw [base_fillWith, h.base_eq]
  size_eq := by rw [size_fillWith, h.size_eq]
  byte x := by
    rw [byte?_fillWith, h.byte, ByteMap.put]
    by_cases hx : a ≤ x ∧ x < a + n
    · rw [if_pos hx, if_pos hx]
      split <;> rfl
    · rw [if_neg hx, if_neg hx]

theorem call (h : m.Holds base size M) (c : Call) :
    (m.call c).1.Holds base size (M.call base size c).1 ∧
      (m.call c).2 = (M.call base size c).2 := by
  cases c with
  | load a bytes =>
    simp only [Memory.call, ByteMap.call, place, h.fits]
    by_cases hw : Within base size a.toNat bytes.length
    · simp only [if_pos hw]
      exact ⟨h.write _ _, trivial⟩
    · simp only [if_neg hw]
      exact ⟨h, trivial⟩
  | zero a n =>
    simp only [Memory.call, ByteMap.call, fill, h.fits]
    by_cases hw : Within base size a.toNat n
    · simp only [if_pos hw]
      exact ⟨h.fillWith _ _ _, trivial⟩
    · simp only [if_neg hw]
      exact ⟨h, trivial⟩
  | store a width v =>
    simp only [Memory.call, ByteMap.call, store, storeTrap?, h.fits]
    by_cases hn : width = .none
    · subst hn
      exact ⟨h, rfl⟩
    by_cases hmis : a.toNat % width.size ≠ 0
    · simp only [if_neg hn, if_pos hmis]
      exact ⟨h, trivial⟩
    by_cases hw : Within base size a.toNat width.size
    · simp only [if_neg hn, if_neg hmis, if_pos hw]
      have hput := h.write a.toNat (Word.bytes v width.size)
      rw [Word.length_bytes, ByteMap.put_congr _ _ fun i hi => Word.bytes_getD v hi] at hput
      exact ⟨hput, trivial⟩
    · simp only [if_neg hn, if_neg hmis, if_neg hw]
      exact ⟨h, trivial⟩

theorem read (h : m.Holds base size M) {a n : Nat} (hw : Within base size a n) :
    m.read a n = (List.range n).map fun i => M (a + i) := by
  apply List.map_congr_left
  intro i hi
  rw [List.mem_range] at hi
  obtain ⟨hlow, hhigh⟩ := hw
  rw [Memory.byte, h.byte, if_pos (by omega), Option.getD_some]

theorem number? (h : m.Holds base size M) (a n : Nat) :
    m.number? a n = if Within base size a n then some (M.value a n) else none := by
  simp only [Memory.number?, read?, h.fits]
  by_cases hw : Within base size a n
  · rw [if_pos hw, if_pos hw, h.read hw, Option.map_some, littleEndian_range]
    rfl
  · rw [if_neg hw, if_neg hw, Option.map_none]

/-- The check with words neither wraps nor refuses a range that is there. -/
theorem offset? (h : m.Holds base size M) (hsize : size < 2 ^ 64) (a : Word) (n : Count) :
    (m.offset? a n).map BitVec.toNat =
      if Within base size a.toNat n.toNat then some (a.toNat - base) else none := by
  rw [m.offset?_toNat (h.size_eq ▸ hsize), h.base_eq]
  simp only [h.fits]

theorem checks (h : m.Holds base size M) (hsize : size < 2 ^ 64) (a : Word) (n : Count) :
    ((m.offset? a n).any fun offset => m.hasSlice offset n) = true ↔
      Within base size a.toNat n.toNat := by
  rw [← m.fits_eq_checks (h.size_eq ▸ hsize), h.fits]

end Memory.Holds

/-- What all operations of a block say of it is what a map of bytes says. -/
structure Memory.Refines (m : Memory) (base size : Nat) (M : ByteMap) : Prop where
  byte : ∀ x, m.byte? x = if base ≤ x ∧ x < base + size then some (M x) else none
  fits : ∀ a n, m.fits a n = true ↔ Within base size a n
  offset : ∀ (a : Word) (n : Count), (m.offset? a n).map BitVec.toNat =
    if Within base size a.toNat n.toNat then some (a.toNat - base) else none
  /-- Asking for the slice in the cells as well refuses nothing more. -/
  checks : ∀ (a : Word) (n : Count),
    ((m.offset? a n).any fun offset => m.hasSlice offset n) = true ↔
      Within base size a.toNat n.toNat
  peek : ∀ a : Word, m.peek a =
    if Within base size a.toNat 4 then some (.ofNat 32 (M.value a.toNat 4)) else none
  fetch : ∀ pc : Word, m.fetch pc =
    if pc.toNat % 4 ≠ 0 then .error (.instructionAddressMisaligned pc)
    else if Within base size pc.toNat 4 then .ok (.ofNat 32 (M.value pc.toNat 4))
    else .error (.instructionAccessFault pc)
  load : ∀ (a : Word) (width : Width) (signed : Bool), m.load a width signed =
    if width = .none then .ok 0
    else if a.toNat % width.size ≠ 0 then .error (.loadAddressMisaligned a)
    else if Within base size a.toNat width.size then
      .ok (ByteMap.extended width.size signed (M.value a.toNat width.size))
    else .error (.loadAccessFault a)

namespace Memory.Holds

variable {m : Memory} {base size : Nat} {M : ByteMap}

theorem peek (h : m.Holds base size M) (a : Word) : m.peek a =
    if Within base size a.toNat 4 then some (.ofNat 32 (M.value a.toNat 4)) else none := by
  rw [Memory.peek, h.number?]
  split <;> rfl

theorem refines (h : m.Holds base size M) (hsize : size < 2 ^ 64) : m.Refines base size M where
  byte := h.byte
  fits := h.fits
  offset := h.offset? hsize
  checks := h.checks hsize
  peek := h.peek
  fetch pc := by
    rw [Memory.fetch, h.peek]
    by_cases hw : Within base size pc.toNat 4
    · rw [if_pos hw, if_pos hw]
    · rw [if_neg hw, if_neg hw]
  load a width signed := by
    by_cases hn : width = .none
    · rw [Memory.load, if_pos hn, if_pos hn]
    · rw [Memory.load, if_neg hn, if_neg hn, h.number?]
      by_cases hw : Within base size a.toNat width.size
      · rw [if_pos hw, if_pos hw, ← extend_extended hn signed (M.value_lt _ _)]
      · rw [if_neg hw, if_neg hw]

end Memory.Holds

/-- From a block of zeros, whatever its place and its size in bytes, and after
any calls. Every call has answered by then as it does for a map. -/
theorem memory_refines_byteMap (base : Word) (size : Count) (cs : List Memory.Call) :
    let reached := calls Memory.call (Memory.zeros base size.toNat) cs
    let expected := calls (ByteMap.call base.toNat size.toNat) (fun _ => 0) cs
    reached.2 = expected.2 ∧ reached.1.Refines base.toNat size.toNat expected.1 := by
  intro reached expected
  obtain ⟨hlast, hanswers⟩ := calls_related
    (fun (m : Memory) M => m.Holds base.toNat size.toNat M) (fun _ _ c h => h.call c)
    (Memory.Holds.zeros base size.toNat) cs
  exact ⟨hanswers, hlast.refines size.isLt⟩

end FiveStage
