import FiveStage.Loader
import FiveStage.Proofs.ByteMap

/-!
# Images in memory

The segments of a file are laid over what memory holds, in the order of their
table and each with its bytes and then zeros. An image is loaded exactly if
every segment to be loaded lies in memory and has its bytes in the file. None
of the addresses that the loader works out wraps then.
-/

set_option autoImplicit false

namespace FiveStage

namespace Elf.Segment

structure Placeable (s : Segment) (base size : Nat) (file : List Byte) : Prop where
  within : Within base size s.addr.toNat s.size
  inFile : s.offset + s.fileSize ≤ file.length

instance (s : Segment) (base size : Nat) (file : List Byte) :
    Decidable (s.Placeable base size file) :=
  decidable_of_iff (Within base size s.addr.toNat s.size ∧ s.offset + s.fileSize ≤ file.length)
    ⟨fun h => ⟨h.1, h.2⟩, fun h => ⟨h.within, h.inFile⟩⟩

def content (s : Segment) (file : List Byte) (i : Nat) : Byte :=
  if i < s.fileSize then file.getD (s.offset + i) 0 else 0

def Covers (s : Segment) (x : Nat) : Prop :=
  s.loads ∧ s.addr.toNat ≤ x ∧ x < s.addr.toNat + s.size

/-- Why a segment that is not placeable is refused. Its place comes first. -/
def refusal (s : Segment) (base size : Nat) : Error :=
  if Within base size s.addr.toNat s.size then .elf (.segmentOutsideFile s.addr)
  else .tooLarge s.addr s.size

theorem fileSize_le (s : Segment) : s.fileSize ≤ s.size :=
  Nat.le_max_right _ _

theorem bytes?_inFile {s : Segment} {file : List Byte} (h : s.offset + s.fileSize ≤ file.length) :
    s.bytes? file = some ((file.drop s.offset).take s.fileSize) :=
  if_pos h

theorem bytes?_some {s : Segment} {file bytes : List Byte} (h : s.bytes? file = some bytes) :
    s.offset + s.fileSize ≤ file.length ∧ bytes = (file.drop s.offset).take s.fileSize := by
  obtain ⟨hle, hbytes⟩ := Option.ite_none_right_eq_some.mp h
  exact ⟨hle, (Option.some.inj hbytes).symm⟩

theorem length_bytes? {s : Segment} {file bytes : List Byte} (h : s.bytes? file = some bytes) :
    bytes.length = s.fileSize := by
  obtain ⟨hle, rfl⟩ := bytes?_some h
  rw [List.length_take, List.length_drop]
  omega

theorem bytes?_outside {s : Segment} {file : List Byte}
    (h : ¬s.offset + s.fileSize ≤ file.length) : s.bytes? file = none :=
  if_neg h

end Elf.Segment

namespace ByteMap

def withSegment (file : List Byte) (M : ByteMap) (s : Elf.Segment) : ByteMap :=
  M.put s.addr.toNat s.size (s.content file)

/-- The map with segments laid over it, each over those before. -/
def withSegments (file : List Byte) (M : ByteMap) (segments : List Elf.Segment) : ByteMap :=
  segments.foldl (withSegment file) M

theorem put_none (M : ByteMap) (a : Nat) (f : Nat → Byte) : M.put a 0 f = M := by
  ext1 x
  exact if_neg (by omega)

theorem put_put (M : ByteMap) (a n k : Nat) (f g : Nat → Byte) :
    (M.put a n f).put (a + n) k g =
      M.put a (n + k) fun i => if i < n then f i else g (i - n) := by
  ext1 x
  simp only [put]
  by_cases hfirst : a ≤ x ∧ x < a + n
  · rw [if_neg (by omega), if_pos hfirst, if_pos (by omega), if_pos (by omega)]
  by_cases hsecond : a + n ≤ x ∧ x < a + n + k
  · rw [if_pos hsecond, if_pos (by omega), if_neg (by omega), Nat.sub_add_eq]
  · rw [if_neg hsecond, if_neg hfirst, if_neg (by omega)]

theorem withSegment_covered {s : Elf.Segment} {x : Nat} (h : s.Covers x) (file : List Byte)
    (M : ByteMap) : M.withSegment file s x = s.content file (x - s.addr.toNat) :=
  if_pos h.2

theorem withSegment_frame {s : Elf.Segment} {x : Nat} (hs : s.loads) (h : ¬s.Covers x)
    (file : List Byte) (M : ByteMap) : M.withSegment file s x = M x :=
  if_neg fun hx => h ⟨hs, hx⟩

theorem withSegments_append (file : List Byte) (M : ByteMap) (first second : List Elf.Segment) :
    M.withSegments file (first ++ second) = (M.withSegments file first).withSegments file second :=
  List.foldl_append

theorem withSegments_frame (file : List Byte) (M : ByteMap) {segments : List Elf.Segment} {x : Nat}
    (h : ∀ s ∈ segments, ¬s.Covers x) :
    M.withSegments file (segments.filter (·.loads)) x = M x := by
  induction segments generalizing M with
  | nil => rfl
  | cons s rest ih =>
    have hrest := fun M => ih M fun t ht => h t (List.mem_cons_of_mem s ht)
    by_cases hs : s.loads
    · rw [List.filter_cons_of_pos hs, withSegments, List.foldl_cons]
      exact (hrest _).trans (withSegment_frame hs (h s List.mem_cons_self) file M)
    · rw [List.filter_cons_of_neg hs]
      exact hrest M

theorem withSegments_last (file : List Byte) (M : ByteMap) (before after : List Elf.Segment)
    {s : Elf.Segment} {x : Nat} (hx : s.Covers x) (hlast : ∀ t ∈ after, ¬t.Covers x) :
    M.withSegments file ((before ++ s :: after).filter (·.loads)) x =
      s.content file (x - s.addr.toNat) := by
  rw [List.filter_append, withSegments_append, List.filter_cons_of_pos hx.1, withSegments,
    List.foldl_cons]
  exact (withSegments_frame file _ hlast).trans (withSegment_covered hx file _)

end ByteMap

namespace Memory

theorem holds_byte (m : Memory) : m.Holds m.base.toNat m.size m.byte where
  base_eq := rfl
  size_eq := rfl
  byte x := by
    by_cases hx : m.base.toNat ≤ x ∧ x < m.base.toNat + m.size
    · have hin : x - m.base.toNat < m.cells.size := by
        have hhigh := hx.2
        unfold size at hhigh
        omega
      rw [if_pos hx, byte, byte?, if_pos hx.1, Array.getElem?_eq_getElem hin, Option.getD_some]
    · rw [if_neg hx, byte?]
      split
      · exact Array.getElem?_eq_none (by unfold size at hx; omega)
      · rfl

namespace Holds

variable {m : Memory} {base size : Nat} {M : ByteMap} {file : List Byte} {s : Elf.Segment}

theorem place_within (h : m.Holds base size M) {a : Nat} {bs : List Byte}
    (hw : Within base size a bs.length) : m.place a bs = (m.write a bs, true) :=
  if_pos ((h.fits a bs.length).mpr hw)

theorem fill_within (h : m.Holds base size M) {a n : Nat} (hw : Within base size a n) (b : Byte) :
    m.fill a n b = (Memory.fillWith b m a n, true) :=
  if_pos ((h.fits a n).mpr hw)

/-- The part of a segment beyond its bytes lies in memory with the segment, and
no address in it wraps. -/
theorem clearRest (h : m.Holds base size M) (hend : base + size ≤ 2 ^ 32)
    (hw : Within base size s.addr.toNat s.size) :
    (m.clearRest s).2 = .ok () ∧ (m.clearRest s).1.Holds base size
      (M.put (s.addr.toNat + s.fileSize) (s.size - s.fileSize) fun _ => 0) := by
  unfold Memory.clearRest
  by_cases hrest : s.fileSize < s.size
  · obtain ⟨hlow, hhigh⟩ := hw
    have haddr : (s.addr + BitVec.ofNat 32 s.fileSize).toNat = s.addr.toNat + s.fileSize := by
      rw [BitVec.toNat_add, BitVec.toNat_ofNat, Nat.add_mod_mod, Nat.mod_eq_of_lt (by omega)]
    have hin : Within base size (s.addr.toNat + s.fileSize) (s.size - s.fileSize) :=
      ⟨by omega, by omega⟩
    rw [if_pos hrest, haddr, h.fill_within hin]
    exact ⟨rfl, h.fillWith _ _ 0⟩
  · rw [if_neg hrest, Nat.sub_eq_zero_of_le (Nat.le_of_not_lt hrest), ByteMap.put_none]
    exact ⟨rfl, h⟩

theorem loadBinary (h : m.Holds base size M) (hw : Within base size s.addr.toNat s.size)
    {bytes : List Byte} (hb : s.bytes? file = some bytes) :
    m.loadBinary s.addr bytes =
      ⟨m.write s.addr.toNat bytes, .ok (), [.loadedBinary s.addr bytes.length]⟩ := by
  have hin : Within base size s.addr.toNat bytes.length := by
    have hle := s.fileSize_le
    obtain ⟨hlow, hhigh⟩ := hw
    rw [Elf.Segment.length_bytes? hb]
    exact ⟨hlow, by omega⟩
  rw [Memory.loadBinary, h.place_within hin]

theorem loadSegment (h : m.Holds base size M) (hend : base + size ≤ 2 ^ 32)
    (hp : s.Placeable base size file) :
    (m.loadSegment file s).outcome = .ok () ∧
      (m.loadSegment file s).ram.Holds base size (M.withSegment file s) := by
  have hbytes := Elf.Segment.bytes?_inFile hp.inFile
  have hfits : m.fits s.addr.toNat s.size = true := (h.fits _ _).mpr hp.within
  have hput := h.write s.addr.toNat ((file.drop s.offset).take s.fileSize)
  obtain ⟨hcleared, hram⟩ := hput.clearRest hend hp.within
  rw [Elf.Segment.length_bytes? hbytes, ByteMap.put_put,
    Nat.add_sub_cancel' s.fileSize_le] at hram
  have hcontent : ∀ i < s.size,
      (if i < s.fileSize then ((file.drop s.offset).take s.fileSize).getD i 0 else 0) =
        s.content file i := by
    intro i _
    unfold Elf.Segment.content
    split
    · rename_i hi
      rw [List.getD_eq_getElem?_getD, List.getElem?_take_of_lt hi, List.getElem?_drop,
        ← List.getD_eq_getElem?_getD]
    · rfl
  rw [ByteMap.put_congr _ _ hcontent] at hram
  unfold Memory.loadSegment
  simp only [hfits, hbytes, h.loadBinary hp.within hbytes]
  exact ⟨hcleared, hram⟩

theorem loadSegment_refused (h : m.Holds base size M) (hp : ¬s.Placeable base size file) :
    m.loadSegment file s = ⟨m, .error (s.refusal base size), []⟩ := by
  unfold Memory.loadSegment Elf.Segment.refusal
  by_cases hw : Within base size s.addr.toNat s.size
  · have hfits : m.fits s.addr.toNat s.size = true := (h.fits _ _).mpr hw
    rw [if_pos hw, hfits, Elf.Segment.bytes?_outside fun hfile => hp ⟨hw, hfile⟩]
    rfl
  · have hfits : m.fits s.addr.toNat s.size = false :=
      Bool.eq_false_iff.mpr ((h.fits _ _).not.mpr hw)
    rw [if_neg hw, hfits]
    rfl

end Holds

theorem loadSegments_skip (m : Memory) (file : List Byte) {s : Elf.Segment} (hs : ¬s.loads)
    (rest : List Elf.Segment) : m.loadSegments file (s :: rest) = m.loadSegments file rest := by
  rw [loadSegments, if_neg hs]

theorem loadSegments_stop {m ram : Memory} {file : List Byte} {s : Elf.Segment} {e : Error}
    {events : List Event} (hs : s.loads) (he : m.loadSegment file s = ⟨ram, .error e, events⟩)
    (rest : List Elf.Segment) : m.loadSegments file (s :: rest) = ⟨ram, .error e, events⟩ := by
  rw [loadSegments, if_pos hs, he]

theorem loadSegments_next {m : Memory} {file : List Byte} {s : Elf.Segment} (hs : s.loads)
    (hok : (m.loadSegment file s).outcome = .ok ()) (rest : List Elf.Segment) :
    (m.loadSegments file (s :: rest)).ram =
        ((m.loadSegment file s).ram.loadSegments file rest).ram ∧
      (m.loadSegments file (s :: rest)).outcome =
        ((m.loadSegment file s).ram.loadSegments file rest).outcome := by
  rw [loadSegments, if_pos hs]
  generalize m.loadSegment file s = loaded at hok ⊢
  obtain ⟨ram, outcome, events⟩ := loaded
  subst hok
  exact ⟨rfl, rfl⟩

theorem loadSegments_append {file : List Byte} {before : List Elf.Segment} {m : Memory}
    (hok : (m.loadSegments file before).outcome = .ok ()) (rest : List Elf.Segment) :
    (m.loadSegments file (before ++ rest)).ram =
        ((m.loadSegments file before).ram.loadSegments file rest).ram ∧
      (m.loadSegments file (before ++ rest)).outcome =
        ((m.loadSegments file before).ram.loadSegments file rest).outcome := by
  induction before generalizing m with
  | nil => exact ⟨rfl, rfl⟩
  | cons s before ih =>
    rw [List.cons_append]
    by_cases hs : s.loads
    · cases hloaded : m.loadSegment file s with
      | mk ram outcome events =>
        cases outcome with
        | ok =>
          have hfirst : (m.loadSegment file s).outcome = .ok () := by rw [hloaded]
          obtain ⟨hram, houtcome⟩ := loadSegments_next hs hfirst before
          obtain ⟨hall, hanswer⟩ := loadSegments_next hs hfirst (before ++ rest)
          rw [hall, hanswer, hram]
          exact ih (houtcome.symm.trans hok)
        | error e =>
          rw [loadSegments_stop hs hloaded] at hok
          cases hok
    · rw [loadSegments_skip m file hs] at hok ⊢
      rw [loadSegments_skip m file hs]
      exact ih hok

section Table
variable {base size : Nat} {file : List Byte}

theorem Holds.loadSegments_placed (hend : base + size ≤ 2 ^ 32) {segments : List Elf.Segment}
    (hall : ∀ s ∈ segments, s.loads → s.Placeable base size file)
    {m : Memory} {M : ByteMap} (h : m.Holds base size M) :
    (m.loadSegments file segments).outcome = .ok () ∧ (m.loadSegments file segments).ram.Holds
      base size (M.withSegments file (segments.filter (·.loads))) := by
  induction segments generalizing m M with
  | nil => exact ⟨rfl, h⟩
  | cons s rest ih =>
    have ih := @ih fun t ht => hall t (List.mem_cons_of_mem s ht)
    by_cases hs : s.loads
    · obtain ⟨hok, hplaced⟩ := h.loadSegment hend (hall s List.mem_cons_self hs)
      obtain ⟨hram, houtcome⟩ := loadSegments_next hs hok rest
      rw [List.filter_cons_of_pos hs, hram, houtcome]
      exact ih hplaced
    · rw [List.filter_cons_of_neg hs, loadSegments_skip m file hs]
      exact ih h

theorem Holds.loadSegments_refused (hend : base + size ≤ 2 ^ 32) {before : List Elf.Segment}
    (hbefore : ∀ t ∈ before, t.loads → t.Placeable base size file) {s : Elf.Segment}
    (hs : s.loads) (hp : ¬s.Placeable base size file) (after : List Elf.Segment)
    {m : Memory} {M : ByteMap} (h : m.Holds base size M) :
    (m.loadSegments file (before ++ s :: after)).outcome = .error (s.refusal base size) ∧
      (m.loadSegments file (before ++ s :: after)).ram = (m.loadSegments file before).ram := by
  obtain ⟨hok, hholds⟩ := h.loadSegments_placed hend hbefore
  obtain ⟨hram, houtcome⟩ := loadSegments_append hok (s :: after)
  rw [loadSegments_stop hs (hholds.loadSegment_refused hp)] at hram houtcome
  exact ⟨houtcome, hram⟩

theorem exists_first_unplaceable {segments : List Elf.Segment}
    (h : ¬∀ s ∈ segments, s.loads → s.Placeable base size file) :
    ∃ before s after, segments = before ++ s :: after ∧
      (∀ t ∈ before, t.loads → t.Placeable base size file) ∧
      s.loads ∧ ¬s.Placeable base size file := by
  induction segments with
  | nil => exact absurd (fun _ hs => absurd hs List.not_mem_nil) h
  | cons s rest ih =>
    by_cases hs : s.loads → s.Placeable base size file
    · obtain ⟨before, t, after, rfl, hbefore, ht⟩ := ih fun hrest =>
        h (List.forall_mem_cons.mpr ⟨hs, hrest⟩)
      exact ⟨s :: before, t, after, rfl, List.forall_mem_cons.mpr ⟨hs, hbefore⟩, ht⟩
    · rw [Classical.not_imp] at hs
      exact ⟨[], s, rest, rfl, fun _ ht => absurd ht List.not_mem_nil, hs⟩

theorem Holds.loadSegments_ok_iff (hend : base + size ≤ 2 ^ 32) {m : Memory} {M : ByteMap}
    (h : m.Holds base size M) (segments : List Elf.Segment) :
    (m.loadSegments file segments).outcome = .ok () ↔
      ∀ s ∈ segments, s.loads → s.Placeable base size file := by
  constructor
  · intro hok
    by_contra hnot
    obtain ⟨before, s, after, rfl, hbefore, hs, hp⟩ := exists_first_unplaceable hnot
    rw [(h.loadSegments_refused hend hbefore hs hp after).1] at hok
    cases hok
  · intro hall
    exact (h.loadSegments_placed hend hall).1

end Table

theorem loadElf_parsed (m : Memory) {file : List Byte} {header : Elf.Header}
    {segments : List Elf.Segment} (hheader : Elf.Header.ofFile file = .ok header)
    (hsegments : header.segments file = .ok segments) :
    (m.loadElf file).ram = (m.loadSegments file segments).ram ∧
      (m.loadElf file).outcome = (m.loadSegments file segments).outcome.map fun _ => header.entry := by
  unfold loadElf
  simp only [hheader, hsegments]
  obtain ⟨ram, outcome, events⟩ := m.loadSegments file segments
  cases outcome <;> exact ⟨rfl, rfl⟩

theorem loadElf_ok_iff (m : Memory) (hend : m.base.toNat + m.size ≤ 2 ^ 32) {file : List Byte}
    {header : Elf.Header} {segments : List Elf.Segment}
    (hheader : Elf.Header.ofFile file = .ok header)
    (hsegments : header.segments file = .ok segments) :
    (∃ entry, (m.loadElf file).outcome = .ok entry) ↔
      ∀ s ∈ segments, s.loads → s.Placeable m.base.toNat m.size file := by
  obtain ⟨-, houtcome⟩ := loadElf_parsed m hheader hsegments
  rw [houtcome, ← m.holds_byte.loadSegments_ok_iff hend segments]
  constructor
  · rintro ⟨entry, hok⟩
    cases hloaded : (m.loadSegments file segments).outcome with
    | ok => rfl
    | error e =>
      rw [hloaded] at hok
      cases hok
  · intro hok
    rw [hok]
    exact ⟨header.entry, rfl⟩

/-- Every range is one of numbers, those of segments without bytes too. -/
theorem loadElf_builds_image (m : Memory) (hend : m.base.toNat + m.size ≤ 2 ^ 32)
    (file : List Byte) {header : Elf.Header} {segments : List Elf.Segment}
    (hheader : Elf.Header.ofFile file = .ok header)
    (hsegments : header.segments file = .ok segments) :
    let loaded := m.loadElf file
    ((∃ entry, loaded.outcome = .ok entry) ↔
      ∀ s ∈ segments, s.loads → s.Placeable m.base.toNat m.size file) ∧
    ((∃ entry, loaded.outcome = .ok entry) →
      loaded.outcome = .ok header.entry ∧
      loaded.ram.Holds m.base.toNat m.size
        (ByteMap.withSegments file m.byte (segments.filter (·.loads))) ∧
      (∀ before s after x, segments = before ++ s :: after → s.Covers x →
        (∀ t ∈ after, ¬t.Covers x) → loaded.ram.byte? x =
          some (if x < s.addr.toNat + s.fileSize then
            file.getD (s.offset + (x - s.addr.toNat)) 0 else 0)) ∧
      ∀ x, (∀ s ∈ segments, ¬s.Covers x) → loaded.ram.byte? x = m.byte? x) := by
  intro loaded
  have hiff := m.loadElf_ok_iff hend hheader hsegments
  refine ⟨hiff, fun hok => ?_⟩
  have hplaced := hiff.mp hok
  obtain ⟨hram, houtcome⟩ := loadElf_parsed m hheader hsegments
  obtain ⟨hloaded, hholds⟩ := m.holds_byte.loadSegments_placed hend hplaced
  rw [hloaded] at houtcome
  rw [← hram] at hholds
  refine ⟨houtcome, hholds, ?_, ?_⟩
  · rintro before s after x rfl hx hlast
    obtain ⟨hs, hfrom, hto⟩ := id hx
    obtain ⟨hlow, hhigh⟩ := (hplaced s (by simp) hs).within
    rw [hholds.byte, if_pos (by omega), ByteMap.withSegments_last file _ before after hx hlast,
      Elf.Segment.content]
    congr 1
    by_cases hbytes : x < s.addr.toNat + s.fileSize
    · rw [if_pos hbytes, if_pos (by omega)]
    · rw [if_neg hbytes, if_neg (by omega)]
  · intro x hx
    rw [hholds.byte, m.holds_byte.byte, ByteMap.withSegments_frame file _ hx]

def filled : Memory :=
  ⟨0x1000, Array.replicate 16 0xFF⟩

/-- The file of three segments to be loaded and one that is not, which has no
place in memory. The second lies over bytes of the first, and its zeros do so
too. The last one takes up nothing, at the end of memory and of the file. -/
def overlapping : List Byte :=
  Word.image [
    0x464C457F, 0x00010101, 0, 0, 0x00F30002, 1, 0x1004, 52, 0, 0, 0x00200034, 4, 0,
    1, 180, 0, 0x1002, 6, 8, 7, 4,
    1, 184, 0, 0x1004, 1, 3, 7, 4,
    2, 180, 0, 0x2000, 8, 8, 4, 4,
    1, 188, 0, 0x1010, 0, 0, 4, 4,
    0x44332211, 0x88776655]

def overlappingHeader : Elf.Header :=
  { order := .little
    machine := Elf.riscv
    entry := 0x1004
    segmentTable := 52
    sectionTable := 0
    segmentSize := 32
    segmentCount := 4
    sectionSize := 0 }

def overlappingSegments : List Elf.Segment :=
  [⟨1, 180, 0x1002, 6, 8⟩, ⟨1, 184, 0x1004, 1, 3⟩, ⟨2, 180, 0x2000, 8, 8⟩, ⟨1, 188, 0x1010, 0, 0⟩]

set_option maxRecDepth 4000 in
/-- The zeros of the second segment have taken the place of two bytes of the first. -/
theorem loadElf_builds_image_overlapping :
    (filled.loadElf overlapping).outcome = .ok 0x1004 ∧
      (List.range 16).map (fun i => (filled.loadElf overlapping).ram.byte? (0x1000 + i)) =
        [0xFF, 0xFF, 0x11, 0x22, 0x55, 0, 0, 0x66, 0, 0, 0xFF, 0xFF, 0xFF, 0xFF, 0xFF, 0xFF].map
          some := by
  have hheader : Elf.Header.ofFile overlapping = .ok overlappingHeader := rfl
  have hsegments : overlappingHeader.segments overlapping = .ok overlappingSegments := rfl
  obtain ⟨hiff, himage⟩ := loadElf_builds_image filled (by decide) overlapping hheader hsegments
  obtain ⟨hentry, hholds, -⟩ := himage (hiff.mpr (by decide +kernel))
  refine ⟨hentry, ?_⟩
  rw [List.map_congr_left fun i _ => hholds.byte (0x1000 + i)]
  decide +kernel

end Memory

end FiveStage
