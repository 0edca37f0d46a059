/-!
# Register names

The calling convention names each of the thirty-two integer registers.
-/

set_option autoImplicit false

namespace FiveStage

abbrev Reg := BitVec 5

namespace Reg

theorem toNat_lt (r : Reg) : r.toNat < 32 :=
  r.isLt

theorem toNat_ne_zero {r : Reg} (hr : r ≠ 0) : r.toNat ≠ 0 :=
  fun h => hr (BitVec.eq_of_toNat_eq h)

def names : Vector String 32 :=
  #v["zero", "ra", "sp", "gp", "tp", "t0", "t1", "t2", "s0", "s1",
     "a0", "a1", "a2", "a3", "a4", "a5", "a6", "a7",
     "s2", "s3", "s4", "s5", "s6", "s7", "s8", "s9", "s10", "s11",
     "t3", "t4", "t5", "t6"]

def name (r : Reg) : String :=
  names[r.toNat]

def sp : Reg := 2

/-- The first argument register; at a halt it holds the exit code. -/
def a0 : Reg := 10

end Reg

end FiveStage
