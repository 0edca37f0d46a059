import FiveStage.Isa.Control

/-!
# Memory

A block of bytes at consecutive addresses. Addresses are natural numbers, so
that a block may reach past the last address a word can name and no range ever
wraps. Reading is total and gives zero outside the block; writing is total and
changes nothing outside of it. The checked operations ask first whether the
whole range lies in the block.
-/

set_option autoImplicit false

namespace FiveStage

structure Memory where
  base : Word
  cells : Array Byte
  deriving DecidableEq

namespace Memory

def zeros (base : Word) (size : Nat) : Memory :=
  ⟨base, Array.replicate size 0⟩

def size (m : Memory) : Nat :=
  m.cells.size

def byte? (m : Memory) (a : Nat) : Option Byte :=
  if m.base.toNat ≤ a then m.cells[a - m.base.toNat]? else none

def byte (m : Memory) (a : Nat) : Byte :=
  (m.byte? a).getD 0

def setByte (m : Memory) (a : Nat) (b : Byte) : Memory :=
  if m.base.toNat ≤ a then { m with cells := m.cells.setIfInBounds (a - m.base.toNat) b } else m

/-- Whether the `n` bytes from address `a` on lie in the block. An empty range
may stand at the very end. -/
def fits (m : Memory) (a n : Nat) : Bool :=
  m.base.toNat ≤ a && a + n ≤ m.base.toNat + m.size

/-- Where a range begins in the block, worked out with words. The difference must
not borrow, and the end must not carry out of 64 bits. -/
def offset? (m : Memory) (a : Word) (n : Count) : Option Count :=
  let offset := (a - m.base).setWidth 64
  if BitVec.usubOverflow a m.base then none
  else if BitVec.uaddOverflow offset n then none
  else if offset + n ≤ .ofNat 64 m.size then some offset
  else none

/-- Whether the cells have a slice. It is asked once more of each range, whose
place in the block is known by then. -/
def hasSlice (m : Memory) (offset n : Count) : Bool :=
  !BitVec.uaddOverflow offset n && offset + n ≤ .ofNat 64 m.size

theorem offset?_toNat (m : Memory) (hsize : m.size < Nat.pow 2 64) (a : Word) (n : Count) :
    (m.offset? a n).map BitVec.toNat =
      if m.fits a.toNat n.toNat then some (a.toNat - m.base.toNat) else none := by
  unfold offset?
  by_cases hlow : m.base.toNat ≤ a.toNat
  · have ha := a.isLt
    have hoff : ((a - m.base).setWidth 64).toNat = a.toNat - m.base.toNat := by
      rw [BitVec.toNat_setWidth, BitVec.toNat_sub_of_le (BitVec.le_def.mpr hlow),
        Nat.mod_eq_of_lt (by omega)]
    have hborrow : BitVec.usubOverflow a m.base = false := by
      simp only [BitVec.usubOverflow, decide_eq_false_iff_not]
      omega
    simp only [hborrow, Bool.false_eq_true, if_false]
    -- an end that carries out of a word is past a block whose size is a word
    by_cases hcarry : Nat.pow 2 64 ≤ a.toNat - m.base.toNat + n.toNat
    · have hout : m.fits a.toNat n.toNat = false := by
        simp only [fits, Bool.and_eq_false_iff, decide_eq_false_iff_not]
        omega
      have hover : BitVec.uaddOverflow ((a - m.base).setWidth 64) n = true := by
        rw [BitVec.uaddOverflow, hoff]
        exact decide_eq_true hcarry
      rw [if_pos hover, hout]
      rfl
    · have hover : ¬BitVec.uaddOverflow ((a - m.base).setWidth 64) n = true := by
        rw [BitVec.uaddOverflow, hoff, decide_eq_true_eq]
        exact hcarry
      have hiff : (a - m.base).setWidth 64 + n ≤ .ofNat 64 m.size ↔
          m.fits a.toNat n.toNat = true := by
        rw [BitVec.le_def, BitVec.toNat_add, hoff, BitVec.toNat_ofNat, Nat.mod_eq_of_lt hsize,
          Nat.mod_eq_of_lt (Nat.lt_of_not_le hcarry)]
        simp only [fits, Bool.and_eq_true, decide_eq_true_eq]
        omega
      rw [if_neg hover]
      by_cases hfits : m.fits a.toNat n.toNat = true
      · rw [if_pos (hiff.mpr hfits), if_pos hfits, Option.map_some, hoff]
      · rw [if_neg (fun h => hfits (hiff.mp h)), if_neg hfits, Option.map_none]
  · have hborrow : BitVec.usubOverflow a m.base = true := by
      simp only [BitVec.usubOverflow, decide_eq_true_eq]
      omega
    have hout : m.fits a.toNat n.toNat = false := by
      rw [fits, decide_eq_false hlow, Bool.false_and]
    rw [if_pos hborrow, hout]
    rfl

theorem hasSlice_offset? {m : Memory} {a : Word} {n offset : Count}
    (h : m.offset? a n = some offset) : m.hasSlice offset n = true := by
  simp only [offset?, Option.ite_none_left_eq_some, Option.ite_none_right_eq_some,
    Option.some.injEq] at h
  obtain ⟨-, hcarry, hend, rfl⟩ := h
  rw [hasSlice, Bool.eq_false_iff.mpr hcarry, decide_eq_true hend]
  rfl

/-- The bounds of a block below 2^64 bytes are the same in words as in numbers. -/
theorem fits_eq_isSome (m : Memory) (hsize : m.size < Nat.pow 2 64) (a : Word) (n : Count) :
    m.fits a.toNat n.toNat = (m.offset? a n).isSome := by
  rw [← Option.isSome_map (f := BitVec.toNat), m.offset?_toNat hsize]
  cases m.fits a.toNat n.toNat <;> rfl

/-- Asking for the slice as well refuses nothing more. -/
theorem fits_eq_checks (m : Memory) (hsize : m.size < Nat.pow 2 64) (a : Word) (n : Count) :
    m.fits a.toNat n.toNat = (m.offset? a n).any fun offset => m.hasSlice offset n := by
  rw [m.fits_eq_isSome hsize]
  cases ho : m.offset? a n with
  | none => rfl
  | some offset => rw [Option.isSome_some, Option.any_some, hasSlice_offset? ho]

def read (m : Memory) (a n : Nat) : List Byte :=
  (List.range n).map fun i => m.byte (a + i)

def write : Memory → Nat → List Byte → Memory
  | m, _, [] => m
  | m, a, b :: bs => write (m.setByte a b) (a + 1) bs

def fillWith (b : Byte) : Memory → Nat → Nat → Memory
  | m, _, 0 => m
  | m, a, n + 1 => fillWith b (m.setByte a b) (a + 1) n

@[simp] theorem base_setByte (m : Memory) (a : Nat) (b : Byte) : (m.setByte a b).base = m.base := by
  unfold setByte
  split <;> rfl

@[simp] theorem size_setByte (m : Memory) (a : Nat) (b : Byte) : (m.setByte a b).size = m.size := by
  unfold setByte
  split <;> simp [size]

theorem byte?_zeros (base : Word) (size x : Nat) : (zeros base size).byte? x =
    if base.toNat ≤ x ∧ x < base.toNat + size then some 0 else none := by
  unfold byte? zeros
  by_cases hb : base.toNat ≤ x
  · by_cases hs : x < base.toNat + size
    · simp [hb, hs, show x - base.toNat < size by omega]
    · simp [hb, hs, show ¬x - base.toNat < size by omega]
  · simp [hb]

theorem byte?_setByte (m : Memory) (a : Nat) (b : Byte) (x : Nat) :
    (m.setByte a b).byte? x = if x = a then (m.byte? x).map fun _ => b else m.byte? x := by
  unfold setByte byte?
  by_cases ha : m.base.toNat ≤ a
  · by_cases hx : x = a
    · subst hx
      by_cases hs : x - m.base.toNat < m.cells.size <;> simp [ha, hs]
    · by_cases hb : m.base.toNat ≤ x
      · have hn : a - m.base.toNat ≠ x - m.base.toNat := by omega
        simp [ha, hb, hx, Array.getElem?_setIfInBounds_ne hn]
      · simp [ha, hb, hx]
  · by_cases hx : x = a
    · subst hx; simp [ha]
    · simp [ha, hx]

@[simp] theorem base_write (m : Memory) (a : Nat) (bs : List Byte) :
    (m.write a bs).base = m.base := by
  induction bs generalizing m a with
  | nil => rfl
  | cons b bs ih => simp [write, ih]

@[simp] theorem size_write (m : Memory) (a : Nat) (bs : List Byte) :
    (m.write a bs).size = m.size := by
  induction bs generalizing m a with
  | nil => rfl
  | cons b bs ih => simp [write, ih]

theorem byte?_write (m : Memory) (a : Nat) (bs : List Byte) (x : Nat) :
    (m.write a bs).byte? x =
      if a ≤ x ∧ x < a + bs.length then (m.byte? x).map fun _ => bs.getD (x - a) 0
      else m.byte? x := by
  induction bs generalizing m a with
  | nil => exact (if_neg fun h => by simp only [List.length_nil] at h; omega).symm
  | cons b bs ih =>
    rw [write, ih, byte?_setByte, List.length_cons]
    by_cases hx : x = a
    · subst hx
      rw [if_neg (by omega), if_pos rfl, if_pos (by omega), Nat.sub_self]
      rfl
    · by_cases hin : a + 1 ≤ x ∧ x < a + 1 + bs.length
      · rw [if_pos hin, if_neg hx, if_pos (by omega),
          show x - a = x - (a + 1) + 1 by omega, List.getD_cons_succ]
      · rw [if_neg hin, if_neg hx, if_neg (by omega)]

theorem byte?_write_frame (m : Memory) (a : Nat) (bs : List Byte) (x : Nat)
    (h : x < a ∨ a + bs.length ≤ x) : (m.write a bs).byte? x = m.byte? x := by
  rw [byte?_write, if_neg (by omega)]

@[simp] theorem base_fillWith (b : Byte) (m : Memory) (a n : Nat) :
    (fillWith b m a n).base = m.base := by
  induction n generalizing m a with
  | zero => rfl
  | succ n ih => simp [fillWith, ih]

@[simp] theorem size_fillWith (b : Byte) (m : Memory) (a n : Nat) :
    (fillWith b m a n).size = m.size := by
  induction n generalizing m a with
  | zero => rfl
  | succ n ih => simp [fillWith, ih]

theorem byte?_fillWith (b : Byte) (m : Memory) (a n x : Nat) :
    (fillWith b m a n).byte? x =
      if a ≤ x ∧ x < a + n then (m.byte? x).map fun _ => b else m.byte? x := by
  induction n generalizing m a with
  | zero => exact (if_neg fun h => by omega).symm
  | succ n ih =>
    rw [fillWith, ih, byte?_setByte]
    by_cases hx : x = a
    · subst hx
      rw [if_neg (by omega), if_pos rfl, if_pos (by omega)]
    · by_cases hin : a + 1 ≤ x ∧ x < a + 1 + n
      · rw [if_pos hin, if_neg hx, if_pos (by omega)]
      · rw [if_neg hin, if_neg hx, if_neg (by omega)]

def read? (m : Memory) (a n : Nat) : Option (List Byte) :=
  if m.fits a n then some (m.read a n) else none

/-- Writes a range of bytes, or nothing if the range does not lie in the block.
The answer says which. -/
def place (m : Memory) (a : Nat) (bs : List Byte) : Memory × Bool :=
  if m.fits a bs.length then (m.write a bs, true) else (m, false)

def fill (m : Memory) (a n : Nat) (b : Byte) : Memory × Bool :=
  if m.fits a n then (m.fillWith b a n, true) else (m, false)

def number? (m : Memory) (a n : Nat) : Option Nat :=
  (m.read? a n).map littleEndian

def peek (m : Memory) (a : Word) : Option Word :=
  (m.number? a.toNat 4).map (BitVec.ofNat 32)

def fetch (m : Memory) (pc : Word) : Except Trap Word :=
  if pc.toNat % 4 ≠ 0 then .error (.instructionAddressMisaligned pc)
  else match m.peek pc with
    | some w => .ok w
    | none => .error (.instructionAccessFault pc)

def extend (width : Width) (signed : Bool) (n : Nat) : Word :=
  match width, signed with
  | .byte, true => (BitVec.ofNat 8 n).signExtend 32
  | .half, true => (BitVec.ofNat 16 n).signExtend 32
  | _, _ => BitVec.ofNat 32 n

/-- Misalignment is found before the range is looked at. -/
def load (m : Memory) (a : Word) (width : Width) (signed : Bool) : Except Trap Word :=
  if width = .none then .ok 0
  else if a.toNat % width.size ≠ 0 then .error (.loadAddressMisaligned a)
  else match m.number? a.toNat width.size with
    | some n => .ok (extend width signed n)
    | none => .error (.loadAccessFault a)

def storeTrap? (m : Memory) (a : Word) (width : Width) : Option Trap :=
  if width = .none then none
  else if a.toNat % width.size ≠ 0 then some (.storeAddressMisaligned a)
  else if m.fits a.toNat width.size then none
  else some (.storeAccessFault a)

def store (m : Memory) (a : Word) (width : Width) (v : Word) : Memory × Option Trap :=
  match m.storeTrap? a width with
  | some t => (m, some t)
  | none => (m.write a.toNat (Word.bytes v width.size), none)

/-- The memory access that an instruction asks for, and the value it loads. An
instruction that loads nothing gets zero. -/
def access (m : Memory) (c : Control) (a v : Word) : Memory × Except Trap Word :=
  if c.memRead then (m, m.load a c.width c.signedLoad)
  else if c.memWrite then
    match m.store a c.width v with
    | (m, none) => (m, .ok 0)
    | (m, some t) => (m, .error t)
  else (m, .ok 0)

/-- The whole words of the block that are not zero, with their addresses. Words
that begin past the last address are left out. -/
def nonzero (m : Memory) : List (Word × Word) :=
  (List.range (m.size / 4)).filterMap fun k =>
    let a := m.base.toNat + 4 * k
    if a < Nat.pow 2 32 then
      match m.peek (BitVec.ofNat 32 a) with
      | some w => if w = 0 then none else some (BitVec.ofNat 32 a, w)
      | none => none
    else none

end Memory

end FiveStage
