import FiveStage.Config.Basic
import FiveStage.Json.Record

/-!
# Configuration documents

A configuration is a JSON record of two sections. Whatever a document leaves
out keeps its default: a section that is left out that of the section, and a
member that a section leaves out its own.
-/

set_option autoImplicit false

namespace FiveStage.Config

open Json

def readWord : Reader Word := fun cs =>
  (readNat (Nat.pow 2 32) "u32" cs).map fun (n, r) => (BitVec.ofNat 32 n, r)

def readCount (expected : String) : Reader Count := fun cs =>
  (readNat (Nat.pow 2 64) expected cs).map fun (n, r) => (BitVec.ofNat 64 n, r)

def setting {α : Type} (name : String) (read : Reader α) (set : Config → α → Config) :
    Member Config :=
  { name := name
    read := fun c cs => (read cs).map fun (a, r) => (set c a, r) }

def generalShape : Shape Config :=
  { title := "GeneralConfig"
    members :=
      [setting "trace_instructions" readBool fun c b => { c with trace := b },
       setting "start_pc" readWord fun c w => { c with startPc := w },
       setting "initial_sp" (readOption readWord) fun c sp => { c with initialSp := sp },
       setting "max_cycles" (readCount "u64") fun c n => { c with maxCycles := n }] }

def memoryShape : Shape Config :=
  { title := "MemoryConfig"
    members :=
      [setting "ram_base" readWord fun c w => { c with ramBase := w },
       setting "ram_size" (readCount "usize") fun c n => { c with ramSize := n }] }

/-- The section with the defaults of its members, from which its reading starts. -/
def bareGeneral (c : Config) : Config :=
  { c with trace := false, startPc := 0x1000, initialSp := none, maxCycles := 10000000 }

def bareMemory (c : Config) : Config :=
  { c with ramBase := 0, ramSize := 0x100000 }

def shape : Shape Config :=
  { title := "Config"
    members :=
      [⟨"general", fun c => generalShape.read c.bareGeneral⟩,
       ⟨"memory", fun c => memoryShape.read c.bareMemory⟩] }

def read (text : String) : Except Failure Config :=
  shape.readDocument {} text

end FiveStage.Config
