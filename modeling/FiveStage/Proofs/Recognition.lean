import FiveStage.Proofs.Refusal

/-!
# Files taken for images

A file is taken for an image if its head names 32 bits, one of the two byte
orders, the version of the format and, in that byte order, the machine. Every
other file is refused before anything is written. The byte order need not be
that of memory.
-/

set_option autoImplicit false

namespace FiveStage

namespace Elf

def ByteOrder.code : ByteOrder → Byte
  | little => 1
  | big => 2

def ByteOrder.riscvBytes : ByteOrder → List Byte
  | little => [0xF3, 0x00]
  | big => [0x00, 0xF3]

structure Identifies (file : List Byte) (order : ByteOrder) : Prop where
  whole : 52 ≤ file.length
  magic : file.take 4 = [0x7F, 0x45, 0x4C, 0x46]
  bits : file[4]? = some 1
  data : file[5]? = some order.code
  version : file[6]? = some 1
  machine : (file.drop 18).take 2 = order.riscvBytes

theorem byteOrder?_eq_some_iff (file : List Byte) (order : ByteOrder) :
    byteOrder? file = some order ↔ file.take 4 = [0x7F, 0x45, 0x4C, 0x46] ∧ file[4]? = some 1 ∧
      file[5]? = some order.code ∧ file[6]? = some 1 := by
  unfold byteOrder?
  split
  · rename_i cls data version rest
    have hhead : (0x7F#8 :: 0x45#8 :: 0x4C#8 :: 0x46#8 :: cls :: data :: version :: rest).take 4 =
        [0x7F, 0x45, 0x4C, 0x46] := rfl
    simp only [hhead, true_and, List.getElem?_cons_succ, List.getElem?_cons_zero,
      Option.some.injEq]
    cases order with
    | little => grind [ByteOrder.code]
    | big => grind [ByteOrder.code]
  · rename_i hother
    constructor
    · intro h
      cases h
    rintro ⟨hmagic, hbits, hdata, hversion⟩
    obtain ⟨hlong, -⟩ := List.getElem?_eq_some_iff.mp hversion
    have hfile : file = 0x7F#8 :: 0x45#8 :: 0x4C#8 :: 0x46#8 ::
        file[4] :: file[5] :: file[6] :: file.drop 7 := by
      conv_lhs => rw [← List.take_append_drop 4 file, hmagic,
        List.drop_eq_getElem_cons (by omega), List.drop_eq_getElem_cons (by omega),
        List.drop_eq_getElem_cons hlong]
      rfl
    exact absurd hfile (hother _ _ _ _)

theorem field_machine (order : ByteOrder) {file : List Byte} (hwhole : 52 ≤ file.length) :
    field order file 18 2 = riscv ↔ (file.drop 18).take 2 = order.riscvBytes := by
  have hbytes : (file.drop 18).take 2 = [file[18], file[19]] := by
    rw [List.drop_eq_getElem_cons (by omega), List.drop_eq_getElem_cons (by omega)]
    rfl
  have hfirst := file[18].isLt
  have hsecond := file[19].isLt
  have hlow : (0xF3 : Byte).toNat = 243 := rfl
  have hhigh : (0x00 : Byte).toNat = 0 := rfl
  unfold field
  simp only [hbytes]
  cases order with
  | little =>
    simp only [littleEndian, riscv, ByteOrder.riscvBytes, List.cons.injEq, and_true,
      ← BitVec.toNat_inj]
    omega
  | big =>
    simp only [littleEndian, riscv, ByteOrder.riscvBytes, List.cons.injEq, and_true,
      ← BitVec.toNat_inj, List.reverse_cons, List.reverse_nil, List.nil_append, List.cons_append]
    omega

theorem identifies_of_ofFile {file : List Byte} {header : Header}
    (h : Header.ofFile file = .ok header) :
    Identifies file header.order ∧ header.entry = .ofNat 32 (field header.order file 24 4) := by
  unfold Header.ofFile at h
  split at h
  · cases h
  rename_i hshort
  have hwhole : 52 ≤ file.length := Nat.le_of_not_lt hshort
  split at h
  · cases h
  rename_i order horder
  obtain ⟨hmagic, hbits, hdata, hversion⟩ := (byteOrder?_eq_some_iff file order).mp horder
  dsimp only at h
  split at h
  · rename_i hmachine
    cases Except.ok.inj h
    exact ⟨⟨hwhole, hmagic, hbits, hdata, hversion, (field_machine order hwhole).mp hmachine⟩, rfl⟩
  · cases h

theorem Identifies.ofFile {file : List Byte} {order : ByteOrder} (h : Identifies file order) :
    ∃ header, Header.ofFile file = .ok header ∧ header.order = order := by
  have horder : byteOrder? file = some order :=
    (byteOrder?_eq_some_iff file order).mpr ⟨h.magic, h.bits, h.data, h.version⟩
  have hmachine : field order file 18 2 = riscv := (field_machine order h.whole).mpr h.machine
  have hlong : ¬file.length < headerSize := Nat.not_lt_of_le h.whole
  unfold Header.ofFile
  rw [if_neg hlong, horder]
  simp only [hmachine, if_true]
  exact ⟨_, rfl, rfl⟩

end Elf

namespace Memory

theorem loadElf_unidentified (m : Memory) {file : List Byte}
    (h : ∀ order, ¬Elf.Identifies file order) :
    ∃ p, m.loadElf file = ⟨m, .error (.elf p), []⟩ := by
  cases hheader : Elf.Header.ofFile file with
  | error p => exact ⟨p, m.loadElf_headers (.inl hheader)⟩
  | ok header => exact absurd (Elf.identifies_of_ofFile hheader).1 (h header.order)

theorem loadElf_identified {m : Memory} {file : List Byte} {entry : Word}
    (h : (m.loadElf file).outcome = .ok entry) :
    ∃ order, Elf.Identifies file order ∧ entry = .ofNat 32 (Elf.field order file 24 4) := by
  rcases headers_cases file with ⟨p, hp⟩ | ⟨header, segments, hheader, hsegments⟩
  · rw [m.loadElf_headers hp] at h
    cases h
  obtain ⟨-, houtcome⟩ := loadElf_parsed m hheader hsegments
  obtain ⟨hidentifies, hentry⟩ := Elf.identifies_of_ofFile hheader
  rw [h] at houtcome
  cases hloaded : (m.loadSegments file segments).outcome with
  | error e =>
    rw [hloaded] at houtcome
    cases houtcome
  | ok =>
    rw [hloaded] at houtcome
    exact ⟨header.order, hidentifies, (Except.ok.inj houtcome).trans hentry⟩

/-- A file that names the other byte order than that of memory is read in the
order that it names. Where it does not, being little-endian is required. -/
theorem loadElf_recognises (m : Memory) (file : List Byte) :
    (∀ entry, (m.loadElf file).outcome = .ok entry →
      ∃ order, Elf.Identifies file order ∧ entry = .ofNat 32 (Elf.field order file 24 4)) ∧
    ((∀ order, ¬Elf.Identifies file order) →
      ∃ p, m.loadElf file = ⟨m, .error (.elf p), []⟩) ∧
    (∀ order, Elf.Identifies file order →
      ∃ header, Elf.Header.ofFile file = .ok header ∧ header.order = order) ∧
    (file[5]? ≠ some 2 →
      (∀ entry, (m.loadElf file).outcome = .ok entry → file[4]? = some 1 ∧ file[5]? = some 1 ∧
        (file.drop 18).take 2 = [0xF3, 0x00]) ∧
      (¬Elf.Identifies file .little → ∃ p, m.loadElf file = ⟨m, .error (.elf p), []⟩)) := by
  refine ⟨fun entry => loadElf_identified, m.loadElf_unidentified, fun order h => h.ofFile, ?_⟩
  intro hdata
  have hlittle : ∀ order, Elf.Identifies file order → order = .little := by
    intro order h
    cases order with
    | little => rfl
    | big => exact absurd h.data hdata
  constructor
  · intro entry hok
    obtain ⟨order, h, -⟩ := loadElf_identified hok
    obtain rfl := hlittle order h
    exact ⟨h.bits, h.data, h.machine⟩
  · intro hnot
    refine m.loadElf_unidentified fun order h => hnot ?_
    rwa [hlittle order h] at h

def foreign : List Byte :=
  Word.image [0x464C457F, 0x00010101, 0, 0, 0x003E0002, 1, 0x1000, 0, 0, 0, 0, 0, 0]

/-- A big-endian file with a single `ebreak`, in the byte order of memory. -/
def reversed : List Byte :=
  ([0x7F454C46, 0x01020100, 0, 0, 0x000200F3, 1, 0x1000, 52, 0, 0, 0x00340020, 0x00010028, 0,
    1, 84, 0, 0x1000, 4, 4, 7, 4, 0x73001000] : List Word).flatMap
      fun w => (Word.bytes w 4).reverse

set_option maxRecDepth 4000 in
theorem loadElf_recognises_foreign :
    (filled.loadElf overlapping).outcome = .ok 0x1004 ∧ overlapping[5]? = some 1 ∧
      (overlapping.drop 18).take 2 = [0xF3, 0x00] ∧
      (∃ p, filled.loadElf foreign = ⟨filled, .error (.elf p), []⟩) ∧
      ∃ header, Elf.Header.ofFile reversed = .ok header ∧ header.order = .big := by
  have hok : (filled.loadElf overlapping).outcome = .ok 0x1004 := rfl
  obtain ⟨-, -, -, hlittle⟩ := loadElf_recognises filled overlapping
  obtain ⟨-, hdata, hmachine⟩ := (hlittle (by decide)).1 _ hok
  have hforeign : ∀ order, ¬Elf.Identifies foreign order := by
    intro order h
    cases order with
    | little => exact absurd h.machine (by decide)
    | big => exact absurd h.machine (by decide)
  have hreversed : Elf.Identifies reversed .big :=
    ⟨by decide, by decide, by decide, by decide, by decide, by decide⟩
  obtain ⟨-, hrefused, -⟩ := loadElf_recognises filled foreign
  obtain ⟨-, -, hidentified, -⟩ := loadElf_recognises filled reversed
  exact ⟨hok, hdata, hmachine, hrefused hforeign, hidentified _ hreversed⟩

set_option maxRecDepth 4000 in
/-- The headers are read in one byte order and the program is run in the other. -/
theorem loadElf_accepts_reversed :
    (filled.loadElf reversed).outcome = .ok 0x1000 ∧
      (filled.loadElf reversed).ram.peek 0x1000 = some Word.ebreak ∧ reversed[5]? = some 2 ∧
      ¬∀ (m : Memory) (file : List Byte) (entry : Word), (m.loadElf file).outcome = .ok entry →
        file[4]? = some 1 ∧ file[5]? = some 1 ∧ (file.drop 18).take 2 = [0xF3, 0x00] := by
  have hok : (filled.loadElf reversed).outcome = .ok 0x1000 := rfl
  refine ⟨hok, by decide +kernel, by decide, fun hlittle => ?_⟩
  obtain ⟨-, hdata, -⟩ := hlittle filled reversed 0x1000 hok
  exact absurd hdata (by decide)

end Memory

end FiveStage
