import FiveStage.CommandLine

/-!
# The program

Reads the files that the arguments name, and prints what the command line
answers.
-/

set_option autoImplicit false

namespace FiveStage.Main

structure Arguments where
  file : Option String := none
  elf : Bool := false
  config : Option String := none
  maxCycles : Option Count := none
  dumpRegs : Bool := false

def count? (text : String) : Option Count :=
  if text.all Char.isDigit then
    match text.toNat? with
    | some n => if n < Nat.pow 2 64 then some (BitVec.ofNat 64 n) else none
    | none => none
  else none

def parse? : Arguments → List String → Option Arguments
  | a, [] => some a
  | a, "--elf" :: rest => parse? { a with elf := true } rest
  | a, "--dump-regs" :: rest => parse? { a with dumpRegs := true } rest
  | a, "-f" :: file :: rest => parse? { a with file := some file } rest
  | a, "--file" :: file :: rest => parse? { a with file := some file } rest
  | a, "--config" :: file :: rest => parse? { a with config := some file } rest
  | a, "--max-cycles" :: n :: rest =>
    match count? n with
    | some n => parse? { a with maxCycles := some n } rest
    | none => none
  | _, _ :: _ => none

def usage : String :=
  "Usage: sim run --file <FILE> [--elf] [--config <CONFIG>] [--max-cycles <N>] [--dump-regs]"

def readBytes (path : String) : IO (Option (List Byte)) := do
  try
    let bytes ← IO.FS.readBinFile path
    return some (bytes.toList.map UInt8.toBitVec)
  catch _ => return none

def readText (path : String) : IO (Option String) := do
  try
    return some (← IO.FS.readFile path)
  catch _ => return none

def request (a : Arguments) (file : String) : IO CommandLine.Request := do
  let config ← a.config.mapM readText
  let image ← readBytes file
  return {
    fileName := file
    image := CommandLine.contents image
    elf := a.elf
    config := config.map CommandLine.contents
    maxCycles := a.maxCycles
    dumpRegs := a.dumpRegs }

def run (args : List String) : IO UInt32 := do
  match args with
  | "run" :: rest =>
    match parse? {} rest with
    | some a =>
      match a.file with
      | some file =>
        let response := CommandLine.respond (← request a file)
        (← IO.getStdout).putStr response.stdout
        (← IO.getStderr).putStr response.stderr
        return response.code.toUInt32
      | none => IO.eprintln usage; return 2
    | none => IO.eprintln usage; return 2
  | _ => IO.eprintln usage; return 2

end FiveStage.Main

def main (args : List String) : IO UInt32 :=
  FiveStage.Main.run args
