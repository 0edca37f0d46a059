import FiveStage.Memory

/-!
# Latches

Between two stages stands a latch that holds one instruction on its way. Every
latch says whether it holds anything, where the instruction came from, its
word, and the trap it has met. An empty latch is called a bubble; its other
fields have fixed values, but a latch that is marked empty may hold others.

Register numbers are plain numbers here: the latches do not check that a
register exists.
-/

set_option autoImplicit false

namespace FiveStage

/-- What all latches hold. The latch between fetch and decode holds no more. -/
structure Slot where
  valid : Bool := false
  pc : Word := 0
  inst : Word := Word.nop
  trap : Option Trap := none
  deriving DecidableEq

structure IdEx extends Slot where
  rs1 : Nat := 0
  rs2 : Nat := 0
  rd : Nat := 0
  imm : Word := 0
  rv1 : Word := 0
  rv2 : Word := 0
  ctrl : Control := {}
  deriving DecidableEq

structure ExMem extends Slot where
  rd : Nat := 0
  alu : Word := 0
  storeData : Word := 0
  ctrl : Control := {}
  deriving DecidableEq

structure MemWb extends Slot where
  rd : Nat := 0
  alu : Word := 0
  loadData : Word := 0
  ctrl : Control := {}
  deriving DecidableEq

namespace Slot

def bubble : Slot := {}

def isEmpty (s : Slot) : Bool :=
  !s.valid

def hasTrap (s : Slot) : Bool :=
  s.valid && s.trap.isSome

def live (s : Slot) : Bool :=
  s.valid && s.trap.isNone

/-- What the latch after fetch takes in: a word, or the trap that fetching it
raised with the idle word in its place. -/
def fetch (ram : Memory) (pc : Word) : Slot :=
  match ram.fetch pc with
  | .ok w => { valid := true, pc := pc, inst := w }
  | .error t => { valid := true, pc := pc, inst := Word.nop, trap := some t }

end Slot

def IdEx.bubble : IdEx := {}
def ExMem.bubble : ExMem := {}
def MemWb.bubble : MemWb := {}

def MemWb.result (e : MemWb) : Word :=
  if e.ctrl.memRead then e.loadData else e.alu

end FiveStage
