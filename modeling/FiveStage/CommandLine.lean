import FiveStage.Machine.Boot
import FiveStage.Stats.Report

/-!
# The command line

What one invocation prints and how it exits, as a function of its options and
of the files that they name.
-/

set_option autoImplicit false

namespace FiveStage.CommandLine

structure Request where
  fileName : String
  image : Except Error (List Byte)
  elf : Bool := false
  config : Option (Except Error String) := none
  maxCycles : Option Count := none
  dumpRegs : Bool := false

structure Response where
  code : Nat
  stdout : String
  stderr : String

def contents {α : Type} (found : Option α) : Except Error α :=
  match found with
  | some a => .ok a
  | none => .error .missingFile

def documentConfig : Option (Except Error String) → Except Error Config
  | none => .ok {}
  | some (.error e) => .error e
  | some (.ok text) => Config.ofDocument text

/-- The configuration of the document, with the cycle limit of the options in
place of its own. -/
def configuration (r : Request) : Except Error Config :=
  (documentConfig r.config).map fun c =>
    match r.maxCycles with
    | some n => { c with maxCycles := n }
    | none => c

def banner (c : Config) : String :=
  "  Trace: " ++ (if c.trace then "true" else "false")
    ++ "  Start PC: " ++ Text.hex c.startPc.toNat
    ++ "  RAM: " ++ Text.decimal (c.ramSize.toNat / 1024) ++ " KiB @ " ++ Text.hex c.ramBase.toNat
    ++ "\n"

def fatal (stdout : String) (e : Error) : Response :=
  ⟨1, stdout, "\n[!] FATAL: " ++ e.text ++ "\n"⟩

def summary (r : Request) (core : Core) : String :=
  core.stats.report
    ++ (if r.dumpRegs then "PC = " ++ Text.hex8 core.pc.toNat ++ "\n" ++ core.regs.text else "")

/-- The system keeps the lowest eight bits of an exit code. -/
def finished (r : Request) (stdout : String) (run : Run) : Response :=
  let summary := summary r run.machine.core
  match run.outcome with
  | .ok code =>
    ⟨code.toNat % 256,
      stdout ++ "\n[*] Exit code " ++ Text.decimal code.toNat ++ "\n" ++ summary, ""⟩
  | .error s => ⟨1, stdout ++ summary, "\n[!] " ++ s.text ++ "\n"⟩

def loaded (r : Request) (image : List Byte) (m : Machine) : Except Error Machine :=
  let loading := if r.elf then m.loadElf image else m.loadProgram image
  loading.outcome.map fun _ => loading.machine

def respond (r : Request) : Response :=
  match configuration r with
  | .error e => fatal "" e
  | .ok config =>
    match Machine.boot config with
    | .error e => fatal "" e
    | .ok machine =>
      let stdout := banner config
      match r.image.bind fun image => loaded r image machine with
      | .error e => fatal stdout e
      | .ok machine =>
        let stdout := stdout ++ "[*] Running " ++ r.fileName ++ " from "
          ++ Text.hex8 machine.core.pc.toNat ++ "\n"
        finished r stdout (machine.run config.maxCycles)

end FiveStage.CommandLine
