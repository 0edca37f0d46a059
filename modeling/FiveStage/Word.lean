/-!
# Bytes, words and counters

Registers and addresses are words of 32 bits, memory is made of bytes, and
event counters have 64 bits and wrap. A word lies in memory with its least
significant byte first.
-/

set_option autoImplicit false

namespace FiveStage

abbrev Byte := BitVec 8
abbrev Word := BitVec 32
abbrev Count := BitVec 64

theorem Count.toNat_succ_of_lt {c limit : Count} (h : c < limit) :
    (c + 1).toNat = c.toNat + 1 := by
  have hlt : c.toNat < limit.toNat := h
  have hlimit := limit.isLt
  rw [BitVec.toNat_add]
  exact Nat.mod_eq_of_lt (Nat.lt_of_le_of_lt hlt hlimit)

def littleEndian : List Byte → Nat
  | [] => 0
  | b :: bs => b.toNat + 256 * littleEndian bs

namespace Word

/-- The word of `addi x0, x0, 0`, which changes nothing but the pc. -/
def nop : Word := 0x13

def instructionSize : Word := 4

/-- The lowest `n` bytes of a word, least significant first. -/
def bytes (w : Word) (n : Nat) : List Byte :=
  (List.range n).map fun i => w.extractLsb' (8 * i) 8

@[simp] theorem length_bytes (w : Word) (n : Nat) : (bytes w n).length = n := by
  simp [bytes]

def image (ws : List Word) : List Byte :=
  ws.flatMap fun w => bytes w 4

end Word

end FiveStage
