import Mathlib.Data.Finset.Lattice.Fold
import Mathlib.Data.Fintype.Basic
import Mathlib.Order.Lattice.Nat
import FiveStage.Proofs.Advance

/-!
# The schedule of a program

When each instruction leaves decode, computed from the program alone: not
before its turn, which comes one cycle later behind an instruction that
redirects the pc, and not before every earlier instruction whose result it
reads is far enough ahead.
-/

set_option autoImplicit false

namespace FiveStage

/-- The number of the cycle in which instruction `k` leaves decode, counted
from one. A lag of zero asks for nothing, since these numbers increase. -/
def leaves (redirect : Nat → Nat) (lag : Nat → Nat → Nat) (k : Nat) : Nat :=
  max
    (match k with
      | 0 => 2
      | k + 1 => leaves redirect lag k + 1 + redirect k)
    ((Finset.univ : Finset (Fin k)).sup fun j => leaves redirect lag j + lag j k)

def enters (redirect : Nat → Nat) (lag : Nat → Nat → Nat) : Nat → Nat
  | 0 => 2
  | k + 1 => leaves redirect lag k + 1 + redirect k

section Recurrence
variable {redirect : Nat → Nat} {lag : Nat → Nat → Nat} {j k t : Nat}

theorem leaves_eq (k : Nat) : leaves redirect lag k =
    max (enters redirect lag k)
      ((Finset.univ : Finset (Fin k)).sup fun j => leaves redirect lag j + lag j k) := by
  cases k <;> rw [leaves] <;> rfl

theorem enters_le_leaves (k : Nat) : enters redirect lag k ≤ leaves redirect lag k := by
  rw [leaves_eq]
  exact le_max_left _ _

theorem lag_le_leaves (h : j < k) : leaves redirect lag j + lag j k ≤ leaves redirect lag k := by
  rw [leaves_eq k]
  exact le_max_of_le_right
    (Finset.le_sup (f := fun i : Fin k => leaves redirect lag i + lag i k) (Finset.mem_univ ⟨j, h⟩))

theorem leaves_le (he : enters redirect lag k ≤ t)
    (hl : ∀ j < k, leaves redirect lag j + lag j k ≤ t) : leaves redirect lag k ≤ t := by
  rw [leaves_eq]
  exact max_le he (Finset.sup_le fun j _ => hl j j.isLt)

theorem leaves_lt_succ (k : Nat) : leaves redirect lag k < leaves redirect lag (k + 1) := by
  have h : enters redirect lag (k + 1) ≤ leaves redirect lag (k + 1) := enters_le_leaves _
  simp only [enters] at h
  omega

theorem leaves_lt (h : j < k) : leaves redirect lag j < leaves redirect lag k := by
  induction k with
  | zero => exact absurd h (Nat.not_lt_zero j)
  | succ k ih =>
    rcases Nat.lt_or_eq_of_le (Nat.lt_succ_iff.mp h) with hlt | rfl
    · exact (ih hlt).trans (leaves_lt_succ k)
    · exact leaves_lt_succ j

theorem leaves_le_of_le (h : j ≤ k) : leaves redirect lag j ≤ leaves redirect lag k := by
  rcases Nat.lt_or_eq_of_le h with hlt | rfl
  · exact (leaves_lt hlt).le
  · exact le_refl _

theorem leaves_unique {f : Nat → Nat} {n : Nat}
    (h : ∀ i < n, f i =
      max (match i with
        | 0 => 2
        | i + 1 => f i + 1 + redirect i)
        ((Finset.univ : Finset (Fin i)).sup fun j => f j + lag j i))
    (hk : k < n) : leaves redirect lag k = f k := by
  induction k using Nat.strong_induction_on with
  | h k ih =>
    have he : ∀ i < k, leaves redirect lag i = f i := fun i hi => ih i hi (hi.trans hk)
    rw [leaves_eq, h k hk]
    congr 1
    · cases k with
      | zero => rfl
      | succ k => rw [enters, he k (Nat.lt_succ_self k)]
    · exact Finset.sup_congr rfl fun i _ => by rw [he i i.isLt]

end Recurrence

namespace Snapshot

/-- How many cycles a consumer has to leave decode behind a producer: one more
if the value is loaded, and one more if it is used in decode. -/
def lag (producer consumer : Snapshot) : Nat :=
  if producer.rd ≠ 0 ∧ (producer.rd = consumer.rs1 ∨ producer.rd = consumer.rs2) then
    1 + producer.memRead.toNat + consumer.transfer.toNat
  else 0

theorem lag_le_three (p c : Snapshot) : p.lag c ≤ 3 := by
  have h1 := Bool.toNat_le p.memRead
  have h2 := Bool.toNat_le c.transfer
  unfold lag
  split <;> omega

theorem lag_bubble (c : Snapshot) : bubble.lag c = 0 := rfl

end Snapshot

namespace Hazard

variable (jump : Bool) (id ex mem : Snapshot)

theorem reads_lag (rd : Nat) :
    (ofSnapshots jump id ex mem).reads rd = true ↔ rd ≠ 0 ∧ (rd = id.rs1 ∨ rd = id.rs2) := by
  simp [reads, ofSnapshots]

theorem exDependency_iff : (ofSnapshots jump id ex mem).exDependency = true ↔ 2 ≤ ex.lag id := by
  have hr := reads_lag jump id ex mem ex.rd
  rw [exDependency, Bool.and_eq_true, Snapshot.lag]
  change _ ∧ (ofSnapshots jump id ex mem).reads ex.rd = true ↔ _
  rw [hr]
  change (id.transfer || ex.memRead) = true ∧ _ ↔ _
  split
  · rename_i h
    cases id.transfer <;> cases ex.memRead <;> simp [h]
  · rename_i h
    simp [h]

theorem memDependency_iff : (ofSnapshots jump id ex mem).memDependency = true ↔ 3 ≤ mem.lag id := by
  have hr := reads_lag jump id ex mem mem.rd
  rw [memDependency, Bool.and_eq_true, Snapshot.lag]
  change _ ∧ (ofSnapshots jump id ex mem).reads mem.rd = true ↔ _
  rw [hr]
  change (id.transfer && mem.memRead) = true ∧ _ ↔ _
  split
  · rename_i h
    cases id.transfer <;> cases mem.memRead <;> simp [h]
  · rename_i h
    simp [h]

end Hazard

/-- An instruction is held back while it would follow a producer in execute by
less than its lag, or a producer in the memory stage. -/
theorem Core.decided_lag (c : Core) : c.decided = .stall ↔
    2 ≤ (Snapshot.ofIdEx c.idEx).lag c.decoded.snapshot ∨
      3 ≤ (Snapshot.ofExMem c.exMem).lag c.decoded.snapshot := by
  rw [decided, Hazard.decision_stall_iff, hazard, Hazard.exDependency_iff,
    Hazard.memDependency_iff]

theorem Snapshot.ofExMem_execute (e : IdEx) (exMem : ExMem) (memWb : MemWb) :
    ofExMem (e.execute exMem memWb) = { ofIdEx e with rs1 := 0, rs2 := 0 } := by
  unfold ofExMem ofIdEx
  rw [IdEx.execute_live]
  cases hl : e.live with
  | false => rfl
  | true =>
    obtain ⟨hv, ht⟩ := Slot.live_iff.mp hl
    simp [IdEx.execute, hv, ht]

theorem Snapshot.ofIdEx_issue (f : Slot) (regs : Registers) (exMem : ExMem) (memWb : MemWb) :
    ofIdEx (Issue.ofSlot f regs exMem memWb).entry = (Issue.ofSlot f regs exMem memWb).snapshot := by
  cases hv : f.valid with
  | false =>
    rw [Issue.ofSlot_empty _ _ _ hv]
    rfl
  | true =>
    rcases f.legal_or_fault hv with ⟨hl, c, hc⟩ | ⟨t, -, hi⟩
    · rw [Issue.ofSlot_legal _ _ _ hl hc]
      simp only [Issue.ofLegal, ofIdEx, Slot.live, ofInstruction, Option.isNone_none, Bool.and_self,
        if_true, Instruction.control_rd hc]
    · rw [hi]
      rfl

end FiveStage
