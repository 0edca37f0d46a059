import FiveStage.Pipeline.Latch

/-!
# Hazards

The hazard unit sees of each instruction in decode, execute and memory only
its snapshot. It holds the instruction in decode back as long as an operand
cannot be forwarded to it, and otherwise discards the instruction behind a
taken transfer.
-/

set_option autoImplicit false

namespace FiveStage

structure Snapshot where
  transfer : Bool := false
  memRead : Bool := false
  rs1 : Nat := 0
  rs2 : Nat := 0
  rd : Nat := 0
  deriving DecidableEq

namespace Snapshot

def bubble : Snapshot := {}

def ofInstruction (d : Instruction) (c : Control) : Snapshot :=
  { transfer := c.isTransfer
    memRead := c.memRead
    rs1 := d.rs1.toNat
    rs2 := d.rs2.toNat
    rd := if c.regWrite then d.rd.toNat else 0 }

def ofWord (w : Word) : Snapshot :=
  let d := decode w
  match d.control? with
  | some c => ofInstruction d c
  | none => bubble

def ofIdEx (e : IdEx) : Snapshot :=
  if e.live then
    { transfer := e.ctrl.isTransfer
      memRead := e.ctrl.memRead
      rs1 := e.rs1
      rs2 := e.rs2
      rd := if e.ctrl.regWrite then e.rd else 0 }
  else bubble

/-- An instruction in the memory stage reads no registers any more. -/
def ofExMem (e : ExMem) : Snapshot :=
  if e.live then
    { transfer := e.ctrl.isTransfer
      memRead := e.ctrl.memRead
      rd := if e.ctrl.regWrite then e.rd else 0 }
  else bubble

end Snapshot

structure Hazard where
  jump : Bool := false
  transfer : Bool := false
  rs1 : Nat := 0
  rs2 : Nat := 0
  memReadEx : Bool := false
  rdEx : Nat := 0
  memReadMem : Bool := false
  rdMem : Nat := 0
  deriving DecidableEq

inductive Decision where
  | noAction
  | stall
  | flush
  deriving DecidableEq

structure Steering where
  ifFlush : Bool := false
  idFlush : Bool := false
  pcStall : Bool := false
  ifStall : Bool := false
  deriving DecidableEq

def Decision.steering : Decision → Steering
  | noAction => {}
  | stall => { idFlush := true, pcStall := true, ifStall := true }
  | flush => { ifFlush := true }

namespace Hazard

/-- `jump` says that the instruction in decode does leave the straight path. -/
def ofSnapshots (jump : Bool) (id ex mem : Snapshot) : Hazard :=
  { jump := jump
    transfer := id.transfer
    rs1 := id.rs1
    rs2 := id.rs2
    memReadEx := ex.memRead
    rdEx := ex.rd
    memReadMem := mem.memRead
    rdMem := mem.rd }

def reads (h : Hazard) (rd : Nat) : Bool :=
  rd != 0 && (rd == h.rs1 || rd == h.rs2)

/-- Whether an operand is still in execute. Only a transfer needs it at once;
others wait for loads alone. -/
def exDependency (h : Hazard) : Bool :=
  (h.transfer || h.memReadEx) && h.reads h.rdEx

def memDependency (h : Hazard) : Bool :=
  h.transfer && h.memReadMem && h.reads h.rdMem

def decision (h : Hazard) : Decision :=
  if h.exDependency || h.memDependency then .stall
  else if h.jump then .flush
  else .noAction

def steering (h : Hazard) : Steering :=
  h.decision.steering

end Hazard

end FiveStage
