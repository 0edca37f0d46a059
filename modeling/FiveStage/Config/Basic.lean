import FiveStage.Word
import FiveStage.Text.Numeral

/-!
# Configurations

Where the memory of a machine lies, where it starts, and how long it may run.
A configuration need not make sense; `validate` names the first rule that it
breaks.
-/

set_option autoImplicit false

namespace FiveStage

structure Config where
  trace : Bool := false
  startPc : Word := 0x1000
  /-- The stack pointer at the start, if it is not to be derived. -/
  initialSp : Option Word := none
  maxCycles : Count := 10000000
  ramBase : Word := 0
  ramSize : Count := 0x100000
  deriving DecidableEq

namespace Config

def ramEnd? (c : Config) : Option Word :=
  if c.ramSize.toNat = 0 then none
  else
    let last := c.ramBase.toNat + (c.ramSize.toNat - 1)
    if c.ramSize.toNat < Nat.pow 2 32 ∧ last < Nat.pow 2 32 then some (BitVec.ofNat 32 last) else none

def contains (c : Config) (a : Word) : Bool :=
  match c.ramEnd? with
  | some last => c.ramBase.toNat ≤ a.toNat && a.toNat ≤ last.toNat
  | none => false

def ramTop (c : Config) : Count :=
  c.ramBase.setWidth 64 + c.ramSize

/-- The stack pointer at the start. A derived one is the top of the memory, or
the last word address if that is lower, brought down to a multiple of sixteen. -/
def stackPointer (c : Config) : Word :=
  match c.initialSp with
  | some sp => sp
  | none => BitVec.ofNat 32 (min c.ramTop.toNat 0xFFFFFFFF) &&& ~~~15

inductive Violation where
  | emptyRam
  | ramTooLarge (size : Count) (base : Word)
  | misalignedStart (pc : Word)
  | startOutside (pc : Word)
  | stackOutside (sp : Word)
  | noCycles
  deriving DecidableEq

def Violation.text : Violation → String
  | emptyRam => "memory.ram_size must be non-zero"
  | ramTooLarge size base =>
    "RAM of " ++ Text.hex size.toNat ++ " bytes at " ++ Text.hex8 base.toNat
      ++ " exceeds the 32-bit address space"
  | misalignedStart pc => "general.start_pc " ++ Text.hex8 pc.toNat ++ " is not 4-byte aligned"
  | startOutside pc => "general.start_pc " ++ Text.hex8 pc.toNat ++ " lies outside RAM"
  | stackOutside sp => "general.initial_sp " ++ Text.hex8 sp.toNat ++ " lies outside RAM"
  | noCycles => "general.max_cycles must be non-zero"

def stackViolation? (c : Config) : Option Violation :=
  match c.initialSp with
  | some sp =>
    if sp.toNat < c.ramBase.toNat ∨ c.ramTop.toNat < sp.toNat then some (.stackOutside sp)
    else none
  | none => none

/-- The first rule broken, in this order. -/
def validate (c : Config) : Except Violation Unit :=
  if c.ramSize = 0 then .error .emptyRam
  else if c.ramEnd?.isNone then .error (.ramTooLarge c.ramSize c.ramBase)
  else if c.startPc.toNat % 4 ≠ 0 then .error (.misalignedStart c.startPc)
  else if !c.contains c.startPc then .error (.startOutside c.startPc)
  else match c.stackViolation? with
    | some v => .error v
    | none => if c.maxCycles = 0 then .error .noCycles else .ok ()

end Config

end FiveStage
