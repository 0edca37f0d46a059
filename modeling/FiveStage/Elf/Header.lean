import FiveStage.Word
import FiveStage.Text.Numeral

/-!
# Headers of ELF images

The file header of a 32-bit image and its table of segments. Numbers are read
in the byte order that the image declares. Tables have to lie inside the file
and start at multiples of four.
-/

set_option autoImplicit false

namespace FiveStage.Elf

inductive ByteOrder where
  | little
  | big
  deriving DecidableEq

inductive Problem where
  | headerSize
  | unsupported
  | foreignMachine (machine : Nat)
  | noSections
  | sectionSize
  | sectionTable
  | segmentSize
  | segmentTable
  | segmentOutsideFile (addr : Word)
  deriving DecidableEq

def Problem.text : Problem → String
  | headerSize => "Invalid ELF header size or alignment"
  | unsupported => "Unsupported ELF header"
  | foreignMachine n => "machine type " ++ Text.decimal n ++ " is not RISC-V"
  | noSections => "Missing ELF section headers for e_phnum overflow"
  | sectionSize => "Invalid ELF section header entry size"
  | sectionTable => "Invalid ELF section header offset or size"
  | segmentSize => "Invalid ELF program header entry size"
  | segmentTable => "Invalid ELF program header size or alignment"
  | segmentOutsideFile addr => "segment at " ++ Text.hex8 addr.toNat ++ " exceeds the file"

def field (order : ByteOrder) (file : List Byte) (offset size : Nat) : Nat :=
  let bytes := (file.drop offset).take size
  match order with
  | .little => littleEndian bytes
  | .big => littleEndian bytes.reverse

structure Header where
  order : ByteOrder
  machine : Nat
  entry : Word
  segmentTable : Nat
  sectionTable : Nat
  segmentSize : Nat
  segmentCount : Nat
  sectionSize : Nat
  deriving DecidableEq

structure Segment where
  kind : Nat
  offset : Nat
  addr : Word
  fileSize : Nat
  memSize : Nat
  deriving DecidableEq

def riscv : Nat := 243

def headerSize : Nat := 52
def segmentSize : Nat := 32
def sectionSize : Nat := 40

/-- A count of segments that says that the true count stands in the first
section header. -/
def countElsewhere : Nat := 0xFFFF

def byteOrder? (file : List Byte) : Option ByteOrder :=
  match file with
  | 0x7F#8 :: 0x45#8 :: 0x4C#8 :: 0x46#8 :: cls :: data :: version :: _ =>
    if cls = 1 ∧ version = 1 then
      if data = 1 then some .little
      else if data = 2 then some .big
      else none
    else none
  | _ => none

def Header.ofFile (file : List Byte) : Except Problem Header :=
  if file.length < headerSize then .error .headerSize
  else match byteOrder? file with
    | none => .error .unsupported
    | some order =>
      let number := field order file
      let header : Header :=
        { order := order
          machine := number 18 2
          entry := BitVec.ofNat 32 (number 24 4)
          segmentTable := number 28 4
          sectionTable := number 32 4
          segmentSize := number 42 2
          segmentCount := number 44 2
          sectionSize := number 46 2 }
      if header.machine = riscv then .ok header else .error (.foreignMachine header.machine)

def tableFits (file : List Byte) (offset n : Nat) : Bool :=
  offset % 4 = 0 && offset + n ≤ file.length

namespace Header

/-- The number of segments, which may be too large for its field. -/
def count (h : Header) (file : List Byte) : Except Problem Nat :=
  if h.segmentCount ≠ countElsewhere then .ok h.segmentCount
  else if h.sectionTable = 0 then .error .noSections
  else if h.sectionSize ≠ Elf.sectionSize then .error .sectionSize
  else if !tableFits file h.sectionTable Elf.sectionSize then .error .sectionTable
  else .ok (field h.order file (h.sectionTable + 28) 4)

def segmentAt (h : Header) (file : List Byte) (offset : Nat) : Segment :=
  let number (k : Nat) := field h.order file (offset + k) 4
  { kind := number 0
    offset := number 4
    addr := BitVec.ofNat 32 (number 12)
    fileSize := number 16
    memSize := number 20 }

def segmentsFor (h : Header) (file : List Byte) (n : Nat) : Except Problem (List Segment) :=
  if n = 0 then .ok []
  else if h.segmentSize ≠ Elf.segmentSize then .error .segmentSize
  else if !tableFits file h.segmentTable (Elf.segmentSize * n) then .error .segmentTable
  else .ok ((List.range n).map fun i => h.segmentAt file (h.segmentTable + Elf.segmentSize * i))

def segments (h : Header) (file : List Byte) : Except Problem (List Segment) :=
  if h.segmentTable = 0 then .ok []
  else (h.count file).bind (h.segmentsFor file)

end Header

namespace Segment

def loads (s : Segment) : Bool :=
  s.kind = 1

/-- The bytes that the segment takes up in memory: those of the file, then
zeros. -/
def size (s : Segment) : Nat :=
  max s.memSize s.fileSize

def bytes? (s : Segment) (file : List Byte) : Option (List Byte) :=
  if s.offset + s.fileSize ≤ file.length then some ((file.drop s.offset).take s.fileSize)
  else none

end Segment

end FiveStage.Elf
