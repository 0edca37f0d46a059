import FiveStage.Machine.Boot
import FiveStage.Proofs.Image

/-!
# Images that are refused

A file is refused for its headers, before anything is written, or for the first
of its segments that has no place in memory or no bytes in the file. Then the
segments before that one are in memory as a whole, and nothing is there of it
or of any behind it. The core is as it was.
-/

set_option autoImplicit false

namespace FiveStage

namespace Elf

def HeadersRefused (file : List Byte) (p : Problem) : Prop :=
  Header.ofFile file = .error p ∨
    ∃ header, Header.ofFile file = .ok header ∧ header.segments file = .error p

/-- The first segment of a table that is to be loaded and is not placeable, with
all those before it. -/
structure FirstRefused (base size : Nat) (file : List Byte) (segments before : List Segment)
    (s : Segment) : Prop where
  split : ∃ after, segments = before ++ s :: after
  placeable : ∀ t ∈ before, t.loads → t.Placeable base size file
  loads : s.loads
  refused : ¬s.Placeable base size file

theorem FirstRefused.unique {base size : Nat} {file : List Byte}
    {segments before before' : List Segment} {s s' : Segment}
    (h : FirstRefused base size file segments before s)
    (h' : FirstRefused base size file segments before' s') : before = before' ∧ s = s' := by
  obtain ⟨⟨after, rfl⟩, hplaceable, hloads, hrefused⟩ := h
  obtain ⟨⟨after', hsplit⟩, hplaceable', hloads', hrefused'⟩ := h'
  induction before generalizing before' with
  | nil =>
    cases before' with
    | nil => exact ⟨rfl, (List.cons.inj hsplit).1⟩
    | cons t rest =>
      obtain ⟨rfl, -⟩ := List.cons.inj hsplit
      exact absurd (hplaceable' s List.mem_cons_self hloads) hrefused
  | cons t rest ih =>
    cases before' with
    | nil =>
      obtain ⟨rfl, -⟩ := List.cons.inj hsplit
      exact absurd (hplaceable t List.mem_cons_self hloads') hrefused'
    | cons t' rest' =>
      obtain ⟨rfl, htail⟩ := List.cons.inj hsplit
      obtain ⟨hrest, hs⟩ := ih (fun u hu => hplaceable u (List.mem_cons_of_mem t hu))
        (fun u hu => hplaceable' u (List.mem_cons_of_mem t hu)) htail
      exact ⟨congrArg (t :: ·) hrest, hs⟩

end Elf

namespace Memory

theorem loadElf_headers (m : Memory) {file : List Byte} {p : Elf.Problem}
    (h : Elf.HeadersRefused file p) : m.loadElf file = ⟨m, .error (.elf p), []⟩ := by
  unfold loadElf
  rcases h with h | ⟨header, hheader, h⟩
  · rw [h]
  · simp only [hheader, h]

theorem headers_cases (file : List Byte) :
    (∃ p, Elf.HeadersRefused file p) ∨
      ∃ header segments, Elf.Header.ofFile file = .ok header ∧
        header.segments file = .ok segments := by
  cases hheader : Elf.Header.ofFile file with
  | error p => exact .inl ⟨p, .inl hheader⟩
  | ok header =>
    cases hsegments : header.segments file with
    | error p => exact .inl ⟨p, .inr ⟨header, hheader, hsegments⟩⟩
    | ok segments => exact .inr ⟨header, segments, rfl, hsegments⟩

theorem loadSegments_nothing (m : Memory) (file : List Byte) {segments : List Elf.Segment}
    (h : ∀ s ∈ segments, ¬s.loads) : m.loadSegments file segments = ⟨m, .ok (), []⟩ := by
  induction segments with
  | nil => rfl
  | cons s rest ih =>
    rw [loadSegments_skip m file (h s List.mem_cons_self)]
    exact ih fun t ht => h t (List.mem_cons_of_mem s ht)

/-- Neither writing the bytes of a segment nor clearing the rest of it fails once
the whole of it was found to fit, whatever was loaded before. -/
theorem loadSegment_unfailing (m : Memory) (hend : m.base.toNat + m.size ≤ 2 ^ 32)
    {file : List Byte} {before : List Elf.Segment}
    (hbefore : (m.loadSegments file before).outcome = .ok ()) {s : Elf.Segment} {bytes : List Byte}
    (hfits : (m.loadSegments file before).ram.fits s.addr.toNat s.size)
    (hbytes : s.bytes? file = some bytes) :
    let loaded := (m.loadSegments file before).ram.loadBinary s.addr bytes
    loaded.outcome = .ok () ∧ (loaded.ram.clearRest s).2 = .ok () := by
  intro loaded
  have hplaceable := (m.holds_byte.loadSegments_ok_iff hend before).mp hbefore
  obtain ⟨-, hholds⟩ := m.holds_byte.loadSegments_placed hend hplaceable
  have hw := (hholds.fits _ _).mp hfits
  have hloaded : loaded = _ := hholds.loadBinary hw hbytes
  rw [hloaded]
  exact ⟨rfl, ((hholds.write _ _).clearRest hend hw).1⟩

end Memory

theorem Machine.loadElf_failed (core : Core) (m : Memory) {file : List Byte} {e : Error}
    (he : (m.loadElf file).outcome = .error e) :
    Machine.loadElf ⟨core, m⟩ file =
      ⟨⟨core, (m.loadElf file).ram⟩, .error e, (m.loadElf file).events⟩ := by
  cases hloaded : m.loadElf file with
  | mk ram outcome events =>
    rw [hloaded] at he
    obtain rfl : outcome = .error e := he
    simp only [Machine.loadElf, hloaded]

namespace Memory

/-- The segment to blame is the first in the order of the table, and its place
is looked at before its bytes. -/
theorem loadElf_stops_between_segments (m : Memory) (hend : m.base.toNat + m.size ≤ 2 ^ 32)
    (file : List Byte) :
    (∀ e, (m.loadElf file).outcome = .error e →
      ((∃ p, Elf.HeadersRefused file p ∧ e = .elf p ∧ (m.loadElf file).ram = m) ∨
        ∃ header segments before s, Elf.Header.ofFile file = .ok header ∧
          header.segments file = .ok segments ∧
          Elf.FirstRefused m.base.toNat m.size file segments before s ∧
          (m.loadSegments file before).outcome = .ok () ∧
          (m.loadElf file).ram = (m.loadSegments file before).ram ∧
          (m.loadElf file).ram.Holds m.base.toNat m.size
            (ByteMap.withSegments file m.byte (before.filter (·.loads))) ∧
          ((∀ t ∈ before, ¬t.loads) → (m.loadElf file).ram = m) ∧
          (¬Within m.base.toNat m.size s.addr.toNat s.size →
            e = .tooLarge s.addr (max s.memSize s.fileSize)) ∧
          (Within m.base.toNat m.size s.addr.toNat s.size →
            file.length < s.offset + s.fileSize ∧ e = .elf (.segmentOutsideFile s.addr))) ∧
      ∀ core, Machine.loadElf ⟨core, m⟩ file =
        ⟨⟨core, (m.loadElf file).ram⟩, .error e, (m.loadElf file).events⟩) ∧
    ∀ before s bytes, (m.loadSegments file before).outcome = .ok () →
      (m.loadSegments file before).ram.fits s.addr.toNat s.size → s.bytes? file = some bytes →
      let loaded := (m.loadSegments file before).ram.loadBinary s.addr bytes
      loaded.outcome = .ok () ∧ (loaded.ram.clearRest s).2 = .ok () := by
  refine ⟨fun e he => ⟨?_, fun core => Machine.loadElf_failed core m he⟩,
    fun before s bytes hbefore => m.loadSegment_unfailing hend hbefore⟩
  rcases headers_cases file with ⟨p, hp⟩ | ⟨header, segments, hheader, hsegments⟩
  · rw [m.loadElf_headers hp] at he ⊢
    exact .inl ⟨p, hp, (Except.error.inj he).symm, rfl⟩
  -- the load has failed, so some segment has no place, and there is a first one
  have hnot : ¬∀ s ∈ segments, s.loads → s.Placeable m.base.toNat m.size file := by
    intro hall
    obtain ⟨entry, hok⟩ := (m.loadElf_ok_iff hend hheader hsegments).mpr hall
    cases hok.symm.trans he
  obtain ⟨before, s, after, rfl, hbefore, hs, hp⟩ := exists_first_unplaceable hnot
  obtain ⟨hram, houtcome⟩ := loadElf_parsed m hheader hsegments
  obtain ⟨hrefused, hstays⟩ := m.holds_byte.loadSegments_refused hend hbefore hs hp after
  obtain ⟨hok, hholds⟩ := m.holds_byte.loadSegments_placed hend hbefore
  rw [hstays] at hram
  rw [hrefused, he] at houtcome
  have hreason : e = s.refusal m.base.toNat m.size := Except.error.inj houtcome
  refine .inr ⟨header, _, before, s, hheader, hsegments, ⟨⟨after, rfl⟩, hbefore, hs, hp⟩, hok,
    hram, hram ▸ hholds, ?_, ?_, ?_⟩
  · intro hnone
    rw [hram, m.loadSegments_nothing file hnone]
  · intro hw
    exact hreason.trans (if_neg hw)
  · intro hw
    exact ⟨Nat.lt_of_not_le fun hfile => hp ⟨hw, hfile⟩, hreason.trans (if_pos hw)⟩

/-- The file of four segments. The second is not to be loaded, and there would be
a place for the bytes of the third but none for its zeros. -/
def exceeding : List Byte :=
  Word.image [
    0x464C457F, 0x00010101, 0, 0, 0x00F30002, 1, 0x1002, 52, 0, 0, 0x00200034, 4, 0,
    1, 180, 0, 0x1002, 4, 6, 7, 4,
    2, 180, 0, 0x2000, 8, 8, 4, 4,
    1, 184, 0, 0x100C, 4, 8, 7, 4,
    1, 184, 0, 0x1000, 2, 2, 7, 4,
    0x44332211, 0x88776655]

def exceedingHeader : Elf.Header :=
  { order := .little
    machine := Elf.riscv
    entry := 0x1002
    segmentTable := 52
    sectionTable := 0
    segmentSize := 32
    segmentCount := 4
    sectionSize := 0 }

def exceedingSegments : List Elf.Segment :=
  [⟨1, 180, 0x1002, 4, 6⟩, ⟨2, 180, 0x2000, 8, 8⟩, ⟨1, 184, 0x100C, 4, 8⟩, ⟨1, 184, 0x1000, 2, 2⟩]

set_option maxRecDepth 4000 in
theorem loadElf_stops_between_segments_exceeding :
    (filled.loadElf exceeding).outcome = .error (.tooLarge 0x100C 8) ∧
      (List.range 16).map (fun i => (filled.loadElf exceeding).ram.byte? (0x1000 + i)) =
        [0xFF, 0xFF, 0x11, 0x22, 0x33, 0x44, 0, 0, 0xFF, 0xFF, 0xFF, 0xFF, 0xFF, 0xFF, 0xFF,
          0xFF].map some := by
  have hheader : Elf.Header.ofFile exceeding = .ok exceedingHeader := rfl
  have hsegments : exceedingHeader.segments exceeding = .ok exceedingSegments := rfl
  have he : (filled.loadElf exceeding).outcome = .error (.tooLarge 0x100C 8) := rfl
  refine ⟨he, ?_⟩
  have hblamed : Elf.FirstRefused filled.base.toNat filled.size exceeding exceedingSegments
      (exceedingSegments.take 2) ⟨1, 184, 0x100C, 4, 8⟩ :=
    { split := ⟨_, rfl⟩
      placeable := by decide
      loads := rfl
      refused := by decide }
  obtain ⟨hstop, -⟩ := (loadElf_stops_between_segments filled (by decide) exceeding).1 _ he
  rcases hstop with ⟨p, -, hp, -⟩ | ⟨header, segments, before, s, h, hs, hfirst, -, -, hholds, -⟩
  · cases hp
  cases h.symm.trans hheader
  cases hs.symm.trans hsegments
  obtain ⟨rfl, -⟩ := hfirst.unique hblamed
  rw [List.map_congr_left fun i _ => hholds.byte (0x1000 + i)]
  decide +kernel

end Memory

end FiveStage
