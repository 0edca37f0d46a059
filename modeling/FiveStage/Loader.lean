import FiveStage.Error

/-!
# Loading programs

A flat binary is a block of bytes for one address, an ELF image brings blocks
for several. A load that fails leaves in memory what it has placed before.
-/

set_option autoImplicit false

namespace FiveStage

structure Load (α : Type) where
  ram : Memory
  outcome : Except Error α
  events : List Event

namespace Memory

def loadBinary (m : Memory) (addr : Word) (image : List Byte) : Load Unit :=
  match m.place addr.toNat image with
  | (m, true) => ⟨m, .ok (), [.loadedBinary addr image.length]⟩
  | (m, false) => ⟨m, .error (.tooLarge addr image.length), []⟩

/-- Clears what a segment takes up beyond its bytes. The address of that part is
a word and wraps. -/
def clearRest (m : Memory) (s : Elf.Segment) : Memory × Except Error Unit :=
  if s.fileSize < s.size then
    match m.fill (s.addr + BitVec.ofNat 32 s.fileSize).toNat (s.size - s.fileSize) 0 with
    | (m, true) => (m, .ok ())
    | (m, false) => (m, .error (.tooLarge s.addr s.size))
  else (m, .ok ())

/-- The whole segment has to fit in memory, and its bytes have to be in the
file, before anything is written. -/
def loadSegment (m : Memory) (file : List Byte) (s : Elf.Segment) : Load Unit :=
  if !m.fits s.addr.toNat s.size then ⟨m, .error (.tooLarge s.addr s.size), []⟩
  else match s.bytes? file with
    | none => ⟨m, .error (.elf (.segmentOutsideFile s.addr)), []⟩
    | some bytes =>
      match m.loadBinary s.addr bytes with
      | ⟨m, .error e, events⟩ => ⟨m, .error e, events⟩
      | ⟨m, .ok (), events⟩ =>
        let (m, outcome) := m.clearRest s
        ⟨m, outcome, events⟩

def loadSegments (file : List Byte) : Memory → List Elf.Segment → Load Unit
  | m, [] => ⟨m, .ok (), []⟩
  | m, s :: rest =>
    if s.loads then
      match m.loadSegment file s with
      | ⟨m, .error e, events⟩ => ⟨m, .error e, events⟩
      | ⟨m, .ok (), events⟩ =>
        let last := loadSegments file m rest
        { last with events := events ++ last.events }
    else loadSegments file m rest

def loadElf (m : Memory) (file : List Byte) : Load Word :=
  match Elf.Header.ofFile file with
  | .error p => ⟨m, .error (.elf p), []⟩
  | .ok header =>
    match header.segments file with
    | .error p => ⟨m, .error (.elf p), []⟩
    | .ok segments =>
      match m.loadSegments file segments with
      | ⟨m, .error e, events⟩ => ⟨m, .error e, events⟩
      | ⟨m, .ok (), events⟩ => ⟨m, .ok header.entry, events ++ [.loadedElf header.entry]⟩

end Memory

end FiveStage
