import FiveStage.Pipeline.Latch
import FiveStage.Isa.Assembly

/-!
# Events

What a machine reports while it works, in the order in which it happens. The
two kinds of trace events are reported only by a machine that is asked to.
-/

set_option autoImplicit false

namespace FiveStage

inductive Event where
  | pipeline (cycle : Count) (pc : Word) (ifId idEx exMem memWb : Slot)
  | retire (pc inst : Word)
  | stall (cycle : Count) (pc : Word) (rs1 rs2 rdEx rdMem : Nat)
  | flush (cycle : Count) (pc target : Word)
  | halt (cycle : Count) (pc code : Word)
  | loadedBinary (addr : Word) (length : Nat)
  | loadedElf (entry : Word)
  | programHalted (code : Word) (cycles retired : Count)
  deriving DecidableEq

inductive Level where
  | trace
  | debug
  | info
  deriving DecidableEq

def Slot.view (s : Slot) : String :=
  if s.isEmpty then "-"
  else if s.hasTrap then "!" ++ disassemble s.inst
  else disassemble s.inst

namespace Event

def level : Event → Level
  | pipeline .. | retire .. => .trace
  | stall .. | flush .. | halt .. | loadedBinary .. | loadedElf .. => .debug
  | programHalted .. => .info

def message : Event → String
  | pipeline .. => "pipeline"
  | retire pc inst => "retire " ++ Text.hex8 pc.toNat ++ ": " ++ disassemble inst
  | stall .. => "stall"
  | flush .. => "flush"
  | halt .. => "halt"
  | loadedBinary .. => "loaded flat binary"
  | loadedElf .. => "loaded ELF image"
  | programHalted .. => "program halted"

end Event

end FiveStage
