import FiveStage.Machine.Run
import FiveStage.Config.Document
import FiveStage.Loader

/-!
# From a configuration to a machine

A machine starts with empty latches and cleared memory. Programs are loaded
into it afterwards, a flat binary at the pc and an ELF image where it says.
-/

set_option autoImplicit false

namespace FiveStage

/-- The valid configuration that a document describes. A document that cannot be
read is refused for that, whatever its values. -/
def Config.ofDocument (text : String) : Except Error Config :=
  match Config.read text with
  | .error f => .error (.json f)
  | .ok c =>
    match c.validate with
    | .error v => .error (.config v)
    | .ok () => .ok c

namespace Machine

def ofConfig (c : Config) : Machine :=
  { core :=
      { regs := Registers.initial.write Reg.sp.toNat c.stackPointer
        pc := c.startPc
        trace := c.trace }
    ram := Memory.zeros c.ramBase c.ramSize.toNat }

def boot (c : Config) : Except Error Machine :=
  match c.validate with
  | .error v => .error (.config v)
  | .ok () => .ok (ofConfig c)

structure Loading where
  machine : Machine
  outcome : Except Error Unit
  events : List Event

def loadProgram : Machine → List Byte → Loading
  | ⟨core, ram⟩, image =>
    match ram.loadBinary core.pc image with
    | ⟨ram, outcome, events⟩ => ⟨⟨core, ram⟩, outcome, events⟩

def loadElf : Machine → List Byte → Loading
  | ⟨core, ram⟩, file =>
    match ram.loadElf file with
    | ⟨ram, .ok entry, events⟩ => ⟨⟨{ core with pc := entry }, ram⟩, .ok (), events⟩
    | ⟨ram, .error e, events⟩ => ⟨⟨core, ram⟩, .error e, events⟩

end Machine

end FiveStage
