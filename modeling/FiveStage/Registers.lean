import FiveStage.Isa.Register
import FiveStage.Word
import FiveStage.Text.Numeral
import FiveStage.Text.Column

/-!
# The register file

Thirty-two registers, the first of which is always zero: writing it has no
effect. Registers are addressed by number, and a number from thirty-two on is
no register.
-/

set_option autoImplicit false

namespace FiveStage

structure Registers where
  cells : Vector Word 32
  zero : cells[0] = 0
  deriving DecidableEq

namespace Registers

def initial : Registers :=
  ⟨Vector.replicate 32 0, by simp⟩

def read (regs : Registers) (r : Reg) : Word :=
  have := r.toNat_lt
  regs.cells[r.toNat]

def read? (regs : Registers) (r : Nat) : Option Word :=
  regs.cells[r]?

/-- The register file after a write. Nothing is written outside of registers
one to thirty-one. -/
def write (regs : Registers) (r : Nat) (v : Word) : Registers :=
  if h : r = 0 then regs
  else ⟨regs.cells.setIfInBounds r v, by
    rw [Vector.getElem_setIfInBounds_ne (by omega) h]; exact regs.zero⟩

def write? (regs : Registers) (r : Nat) (v : Word) : Option Registers :=
  if r < 32 then some (regs.write r v) else none

theorem read_zero (regs : Registers) : regs.read 0 = 0 :=
  regs.zero

theorem read_write (regs : Registers) (n : Nat) (v : Word) {r : Reg} (hr : r ≠ 0) :
    (regs.write n v).read r = if n = r.toNat then v else regs.read r := by
  have h0 := Reg.toNat_ne_zero hr
  unfold write
  split
  · rename_i hn
    rw [if_neg (by omega)]
  · simp [read, Vector.getElem_setIfInBounds]

def nonzero (regs : Registers) : List (Nat × Word) :=
  (regs.cells.toList.zipIdx.map fun (v, i) => (i, v)).filter fun (_, v) => v ≠ 0

def changes (before after : Registers) : List (Nat × Word) :=
  ((before.cells.toList.zip after.cells.toList).zipIdx.filter fun ((a, b), _) => a ≠ b).map
    fun ((_, b), i) => (i, b)

def cellText (regs : Registers) (r : Reg) : String :=
  "x" ++ Text.alignLeft 2 (Text.decimal r.toNat) ++ " " ++ Text.alignRight 4 r.name
    ++ " = " ++ Text.hex8 (regs.read r).toNat

def text (regs : Registers) : String :=
  Text.lines ((List.range 16).map fun i =>
    cellText regs (BitVec.ofNat 5 (2 * i)) ++ "   " ++ cellText regs (BitVec.ofNat 5 (2 * i + 1)))

end Registers

end FiveStage
