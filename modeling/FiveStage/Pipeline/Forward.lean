import FiveStage.Pipeline.Latch

/-!
# Forwarding

An operand that has been computed but not yet written is taken from the latch
that holds it. Execute looks into both later latches, the younger first;
decode looks into the younger alone, since the older one is written to the
register file before decode reads it.
-/

set_option autoImplicit false

namespace FiveStage

/-- A load has its value only after the memory stage. -/
def ExMem.forwardsTo (e : ExMem) (rs : Nat) : Bool :=
  e.live && e.ctrl.regWrite && !e.ctrl.memRead && e.rd != 0 && e.rd == rs

def MemWb.forwardsTo (e : MemWb) (rs : Nat) : Bool :=
  e.live && e.ctrl.regWrite && e.rd != 0 && e.rd == rs

inductive Source where
  | regFile
  | exMem
  | memWb
  deriving DecidableEq

namespace Source

def forExecute (rs : Nat) (exMem : ExMem) (memWb : MemWb) : Source :=
  if exMem.forwardsTo rs then .exMem
  else if memWb.forwardsTo rs then .memWb
  else .regFile

def forDecode (rs : Nat) (exMem : ExMem) : Source :=
  if exMem.forwardsTo rs then .exMem else .regFile

def select (s : Source) (held : Word) (exMem : ExMem) (memWb : MemWb) : Word :=
  match s with
  | .regFile => held
  | .exMem => exMem.alu
  | .memWb => memWb.result

end Source

end FiveStage
