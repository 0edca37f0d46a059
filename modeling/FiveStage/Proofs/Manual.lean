import Mathlib.Algebra.Group.Int.Defs
import Mathlib.Algebra.Group.Nat.Defs
import FiveStage.Word

/-!
# The base instruction set by the manual

The meaning of an instruction word, written with numbers: fields are cut out by
division, immediates and registers are signed or unsigned integers, and every
result is taken modulo the size of a word. Neither the decoder nor the control
signals nor the units of the machine appear here.
-/

set_option autoImplicit false

namespace FiveStage.Manual

def bits (w : Word) (high low : Nat) : Nat :=
  w.toNat / 2 ^ low % 2 ^ (high + 1 - low)

def signed (n v : Nat) : Int :=
  if 2 * v < 2 ^ n then v else v - (2 ^ n : Nat)

def opcode (w : Word) : Nat := bits w 6 0
def rd (w : Word) : Nat := bits w 11 7
def funct3 (w : Word) : Nat := bits w 14 12
def rs1 (w : Word) : Nat := bits w 19 15
def rs2 (w : Word) : Nat := bits w 24 20
def funct7 (w : Word) : Nat := bits w 31 25

def immI (w : Word) : Int :=
  signed 12 (bits w 31 20)

def immS (w : Word) : Int :=
  signed 12 (bits w 31 25 * 2 ^ 5 + bits w 11 7)

def immB (w : Word) : Int :=
  signed 13 (bits w 31 31 * 2 ^ 12 + bits w 7 7 * 2 ^ 11 + bits w 30 25 * 2 ^ 5 + bits w 11 8 * 2)

def immU (w : Word) : Int :=
  (bits w 31 12 * 2 ^ 12 : Nat)

def immJ (w : Word) : Int :=
  signed 21 (bits w 31 31 * 2 ^ 20 + bits w 19 12 * 2 ^ 12 + bits w 20 20 * 2 ^ 11
    + bits w 30 21 * 2)

def legal (w : Word) : Bool :=
  match opcode w with
  | 0x37 | 0x17 | 0x6F => true
  | 0x67 => funct3 w ∈ [0]
  | 0x63 => funct3 w ∈ [0, 1, 4, 5, 6, 7]
  | 0x03 => funct3 w ∈ [0, 1, 2, 4, 5]
  | 0x23 => funct3 w ∈ [0, 1, 2]
  | 0x13 =>
    funct3 w ∉ [1, 5] || funct3 w = 1 && funct7 w = 0
      || funct3 w = 5 && funct7 w ∈ [0, 0x20]
  | 0x33 => funct7 w = 0 || funct7 w = 0x20 && funct3 w ∈ [0, 5]
  | 0x0F => funct3 w ∈ [0]
  | 0x73 => w = 0x00000073 || w = 0x00100073
  | _ => false

/-- The operation on two unsigned numbers; `alternate` selects subtraction and
the arithmetic shift. -/
def operate (funct3 : Nat) (alternate : Bool) (a b : Nat) : Int :=
  match funct3 with
  | 0 => if alternate then (a - b : Int) else (a + b : Int)
  | 1 => (a * 2 ^ (b % 32) : Nat)
  | 2 => if signed 32 a < signed 32 b then 1 else 0
  | 3 => if a < b then 1 else 0
  | 4 => (a ^^^ b : Nat)
  | 5 => if alternate then signed 32 a / 2 ^ (b % 32) else (a / 2 ^ (b % 32) : Nat)
  | 6 => (a ||| b : Nat)
  | _ => (a &&& b : Nat)

def holds (funct3 a b : Nat) : Bool :=
  match funct3 with
  | 0 => a = b
  | 1 => a ≠ b
  | 4 => signed 32 a < signed 32 b
  | 5 => signed 32 b ≤ signed 32 a
  | 6 => a < b
  | _ => b ≤ a

structure Effect where
  write : Option (Nat × Word) := none
  /-- A register, the address it is loaded from, the number of bytes, and
  whether their sign is extended. -/
  load : Option (Nat × Word × Nat × Bool) := none
  /-- An address, the number of bytes, and the word whose lowest bytes they are. -/
  store : Option (Word × Nat × Word) := none
  pc : Word
  halts : Bool := false
  deriving DecidableEq

/-- The effect of a legal word at `pc`, when register `r` holds `x r`. -/
def effect (w pc : Word) (x : Nat → Word) : Effect :=
  let a := (x (rs1 w)).toNat
  let b := (x (rs2 w)).toNat
  let next : Word := .ofNat 32 (pc.toNat + 4)
  match opcode w with
  | 0x37 => { write := some (rd w, .ofInt 32 (immU w)), pc := next }
  | 0x17 => { write := some (rd w, .ofInt 32 (pc.toNat + immU w)), pc := next }
  | 0x6F => { write := some (rd w, next), pc := .ofInt 32 (pc.toNat + immJ w) }
  | 0x67 => { write := some (rd w, next), pc := .ofInt 32 ((a + immI w) / 2 * 2) }
  | 0x63 => { pc := if holds (funct3 w) a b then .ofInt 32 (pc.toNat + immB w) else next }
  | 0x03 =>
    { load := some (rd w, .ofInt 32 (a + immI w), 2 ^ (funct3 w % 4), funct3 w < 4)
      pc := next }
  | 0x23 => { store := some (.ofInt 32 (a + immS w), 2 ^ funct3 w, x (rs2 w)), pc := next }
  | 0x13 =>
    { write := some (rd w, .ofInt 32 (operate (funct3 w) (funct3 w = 5 && funct7 w = 0x20) a
        (immI w % 2 ^ 32).toNat))
      pc := next }
  | 0x33 => { write := some (rd w, .ofInt 32 (operate (funct3 w) (funct7 w = 0x20) a b)), pc := next }
  | 0x73 => { pc := next, halts := true }
  | _ => { pc := next }

example : effect 0xfe628ee3 0x100 (fun _ => 7) = { pc := 0xfc } := by decide +kernel

end FiveStage.Manual
