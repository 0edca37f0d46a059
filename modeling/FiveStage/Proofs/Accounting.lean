import Mathlib.Algebra.Group.Nat.Defs
import FiveStage.Proofs.Record

/-!
# Where the cycles go

Each cycle puts an instruction or a bubble into the pipeline and takes one of
the two out at its end. Only a stall or a flush puts a bubble in. What the
cycle counter shows is therefore what the other counters show, up to the
bubbles that stand in the latches.
-/

set_option autoImplicit false

namespace FiveStage

inductive Kind where
  | load
  | store
  | branch
  | alu
  | system
  deriving DecidableEq

def Opcode.kind : Opcode → Kind
  | .load => .load
  | .store => .store
  | .branch | .jal | .jalr => .branch
  | .op | .opImm | .lui | .auipc => .alu
  | .miscMem | .system => .system

def Word.kind? (w : Word) : Option Kind :=
  (decode w).opcode?.map Opcode.kind

def Control.kind (c : Control) : Kind :=
  if c.memRead then .load
  else if c.memWrite then .store
  else if c.isTransfer then .branch
  else if c.halt || !c.regWrite then .system
  else .alu

def Stats.counter (s : Stats) : Kind → Count
  | .load => s.loads
  | .store => s.stores
  | .branch => s.branches
  | .alu => s.alu
  | .system => s.system

def Core.bubbles (c : Core) : Nat :=
  [c.ifId.valid, c.idEx.valid, c.exMem.valid, c.memWb.valid].count false

theorem Control.kind_eq {w : Word} {c : Control} (h : (decode w).control = .ok c) :
    w.kind? = some c.kind := by
  obtain ⟨o, ho, hw, hr, hm, hb, hj, hh⟩ :=
    Instruction.control_signals (Instruction.control_ok_iff.mp h)
  rw [Word.kind?, ho, kind, isTransfer, hw, hr, hm, hb, hj, hh]
  cases o <;> rfl

theorem Count.toNat_add_bit {x : Count} (b : Bool) (h : x.toNat + 1 < 2 ^ 64) :
    (x + .ofNat 64 b.toNat).toNat = x.toNat + b.toNat := by
  have hb := Bool.toNat_le b
  rw [BitVec.toNat_add_of_lt] <;> rw [BitVec.toNat_ofNat, Nat.mod_eq_of_lt (by omega)]
  omega

theorem Count.toNat_succ {x : Count} (h : x.toNat + 1 < 2 ^ 64) : (x + 1).toNat = x.toNat + 1 :=
  toNat_add_bit true h

namespace Stats

theorem retire_counter (s : Stats) (c : Control) (k : Kind) :
    (s.retire c).counter k = s.counter k + .ofNat 64 (decide (c.kind = k)).toNat := by
  unfold retire Control.kind
  repeat' split
  all_goals cases k <;> simp [counter]

theorem retire_decisions (s : Stats) (c : Control) :
    (s.retire c).stalls = s.stalls ∧ (s.retire c).flushes = s.flushes := by
  unfold retire
  repeat' split
  all_goals exact ⟨rfl, rfl⟩

theorem count_stalls (s : Stats) (d : Decision) :
    (d.count s).stalls = s.stalls + .ofNat 64 (decide (d = .stall)).toNat := by
  cases d <;> simp [Decision.count]

theorem count_flushes (s : Stats) (d : Decision) :
    (d.count s).flushes = s.flushes + .ofNat 64 (decide (d = .flush)).toNat := by
  cases d <;> simp [Decision.count]

end Stats

structure Stats.Counts (s : Stats) (words : List Word) : Prop where
  retired : s.retired.toNat = words.length
  mix : s.loads.toNat + s.stores.toNat + s.branches.toNat + s.alu.toNat + s.system.toNat =
    s.retired.toNat
  kinds : ∀ k, (s.counter k).toNat = words.countP fun w => w.kind? = some k

namespace Stats.Counts

variable {s : Stats} {words : List Word}

theorem counter_le (h : s.Counts words) (k : Kind) : (s.counter k).toNat ≤ s.retired.toNat := by
  rw [h.kinds k, h.retired]
  exact List.countP_le_length

theorem retire {c : Control} {w : Word} (h : s.Counts words) (hk : w.kind? = some c.kind)
    (room : s.retired.toNat + 1 < 2 ^ 64) : (s.retire c).Counts (words ++ [w]) := by
  have hr : (s.retire c).retired.toNat = s.retired.toNat + 1 := by
    rw [retire_retired]
    exact Count.toNat_succ room
  have hc : ∀ k, ((s.retire c).counter k).toNat =
      (s.counter k).toNat + (decide (c.kind = k)).toNat := by
    intro k
    have hle := h.counter_le k
    rw [retire_counter]
    exact Count.toNat_add_bit _ (by omega)
  constructor
  · rw [hr, h.retired, List.length_append, List.length_singleton]
  · -- Exactly one of the five is one higher.
    have hone : ∀ k : Kind, (decide (k = .load)).toNat + (decide (k = .store)).toNat +
        (decide (k = .branch)).toNat + (decide (k = .alu)).toNat +
        (decide (k = .system)).toNat = 1 := by
      intro k
      cases k <;> rfl
    have h1 := hone c.kind
    have h2 := h.mix
    have hl := hc .load
    have hs := hc .store
    have hb := hc .branch
    have ha := hc .alu
    have hy := hc .system
    simp only [counter] at hl hs hb ha hy
    omega
  · intro k
    rw [hc k, h.kinds k, List.countP_append, List.countP_singleton, hk]
    by_cases heq : c.kind = k <;> simp [heq]

theorem cycle (h : s.Counts words) : s.cycle.Counts words :=
  ⟨h.retired, h.mix, h.kinds⟩

theorem count (h : s.Counts words) (d : Decision) : (d.count s).Counts words := by
  cases d <;> exact ⟨h.retired, h.mix, h.kinds⟩

end Stats.Counts

/-- Whether the cycles are accounted for by the instructions, the stalls, the
flushes and the bubbles. The cycle that halts leaves one bubble more. -/
def Core.Balanced (c : Core) : Prop :=
  c.stats.cycles.toNat + c.bubbles = c.stats.retired.toNat + c.stats.stalls.toNat +
    c.stats.flushes.toNat + if c.halted then 5 else 4

namespace Core

theorem balanced_iff {c : Core} (hrun : c.exitCode = none) :
    c.Balanced ↔ c.stats.cycles.toNat + c.bubbles =
      c.stats.retired.toNat + c.stats.stalls.toNat + c.stats.flushes.toNat + 4 := by
  rw [Balanced, halted, hrun]
  rfl

theorem bubbles_add (c : Core) : c.bubbles + c.ifId.valid.toNat + c.idEx.valid.toNat +
    c.exMem.valid.toNat + c.memWb.valid.toNat = 4 := by
  unfold bubbles
  cases c.ifId.valid <;> cases c.idEx.valid <;> cases c.exMem.valid <;> cases c.memWb.valid <;> rfl

theorem next_stalls (c : Core) (ram : Memory) :
    (c.next ram).stats.stalls = c.stats.stalls + .ofNat 64 (decide (c.decided = .stall)).toNat := by
  have h : (c.retirement c.stats.cycle).stalls = c.stats.stalls := by
    unfold retirement
    split
    · exact (Stats.retire_decisions _ _).1
    · rfl
  exact (Stats.count_stalls _ _).trans (by rw [h])

theorem next_flushes (c : Core) (ram : Memory) :
    (c.next ram).stats.flushes = c.stats.flushes + .ofNat 64 (decide (c.decided = .flush)).toNat := by
  have h : (c.retirement c.stats.cycle).flushes = c.stats.flushes := by
    unfold retirement
    split
    · exact (Stats.retire_decisions _ _).2
    · rfl
  exact (Stats.count_flushes _ _).trans (by rw [h])

end Core

namespace Machine

def retiredWords (m : Machine) (t : Nat) : List Word :=
  (m.commits t).map fun p => p.2.inst

/-- A cycle puts in a bubble if it stalls or flushes. -/
theorem bubbles_advancing {m : Machine} (h : m.core.memWb.Coherent) (ha : m.advances = true) :
    m.tick.machine.core.bubbles + 1 = m.core.bubbles + m.core.memWb.valid.toNat +
      (decide (m.core.decided = .stall)).toNat + (decide (m.core.decided = .flush)).toNat := by
  obtain ⟨hin, hidEx, hexMem, hmemWb⟩ := valid_advancing h ha
  have hfetched : m.fetched?.isSome.toNat + (decide (m.core.decided = .stall)).toNat +
      (decide (m.core.decided = .flush)).toNat = 1 := by
    rw [fetched_advancing h ha]
    cases m.core.decided <;> rfl
  have hb := m.core.bubbles_add
  have hb' := m.tick.machine.core.bubbles_add
  rw [hidEx, hexMem, hmemWb] at hb'
  omega

theorem retiredWords_succ (m : Machine) (t : Nat) : m.retiredWords (t + 1) =
    m.retiredWords t ++ if (m.ticks t).retires then [(m.ticks t).core.memWb.inst] else [] := by
  rw [retiredWords, commits, record, List.map_append, retired?]
  split <;> rfl

section Step
variable {m : Machine} {words : List Word}

theorem counted_le (h : m.core.Balanced) (hrun : m.core.exitCode = none) :
    m.core.stats.retired.toNat + m.core.stats.stalls.toNat + m.core.stats.flushes.toNat ≤
      m.core.stats.cycles.toNat := by
  have hb := m.core.bubbles_add
  rw [Core.balanced_iff hrun] at h
  omega

theorem balanced_tick (hc : m.core.memWb.Coherent) (h : m.core.Balanced)
    (ok : m.tick.outcome = .ok ())
    (room : m.core.exitCode = none → m.core.stats.cycles.toNat + 1 < 2 ^ 64) :
    m.tick.machine.core.Balanced := by
  cases turn hc with
  | rests _ _ stays => rwa [stays]
  | traps _ _ _ _ _ outcome _ => exact absurd (outcome.symm.trans ok) nofun
  | halts _ running live _ _ machine =>
    have hle := counted_le h running
    have hcycles := Count.toNat_succ (room running)
    have hretired := Count.toNat_succ (x := m.core.stats.retired) (by omega)
    obtain ⟨hstalls, hflushes⟩ := Stats.retire_decisions m.core.stats.cycle m.core.memWb.ctrl
    have hb := m.core.bubbles_add
    have hb' := m.tick.machine.core.bubbles_add
    rw [(Slot.live_iff.mp live).1, Bool.toNat_true] at hb
    rw [Core.balanced_iff running] at h
    rw [machine] at hb' ⊢
    simp only [Core.Balanced, Core.halted, Option.isSome_some, if_true, Stats.retire_cycles,
      Stats.retire_retired, hstalls, hflushes]
    change (m.core.stats.cycles + 1).toNat + _ = (m.core.stats.retired + 1).toNat +
      m.core.stats.stalls.toNat + m.core.stats.flushes.toNat + 5
    rw [hcycles, hretired]
    simp only [Bool.toNat_false] at hb'
    omega
  | advances goes running passes _ machine =>
    have hle := counted_le h running
    have hcycles := Count.toNat_succ (room running)
    have hretired := Count.toNat_add_bit (x := m.core.stats.retired) m.core.memWb.valid (by omega)
    have hstalls := Count.toNat_add_bit (x := m.core.stats.stalls)
      (decide (m.core.decided = .stall)) (by omega)
    have hflushes := Count.toNat_add_bit (x := m.core.stats.flushes)
      (decide (m.core.decided = .flush)) (by omega)
    have hb := bubbles_advancing hc goes
    rw [Core.balanced_iff running] at h
    simp only [machine] at hb ⊢
    have hrun : (m.core.next m.ram).exitCode = none := running
    rw [Core.balanced_iff hrun, Core.next_cycles, Core.next_retired, Core.next_stalls,
      Core.next_flushes, hcycles, hretired, hstalls, hflushes]
    omega

theorem counts_tick (hc : m.core.memWb.Coherent) (h : m.core.Balanced)
    (hs : m.core.stats.Counts words) (ok : m.tick.outcome = .ok ())
    (room : m.core.exitCode = none → m.core.stats.cycles.toNat + 1 < 2 ^ 64) :
    m.tick.machine.core.stats.Counts
      (words ++ if m.retires then [m.core.memWb.inst] else []) := by
  have hretire (hrun : m.core.exitCode = none) (hl : m.core.memWb.live = true) :
      (m.core.stats.cycle.retire m.core.memWb.ctrl).Counts (words ++ [m.core.memWb.inst]) := by
    have hle := counted_le h hrun
    have hroom := room hrun
    exact hs.cycle.retire (Control.kind_eq (hc.legal hl).1)
      (by change m.core.stats.retired.toNat + 1 < 2 ^ 64; omega)
  cases turn hc with
  | rests _ halted stays =>
    rw [stays, retires_halted halted, if_neg Bool.false_ne_true, List.append_nil]
    exact hs
  | traps _ _ _ _ _ outcome _ => exact absurd (outcome.symm.trans ok) nofun
  | halts _ running live _ _ machine =>
    rw [machine, retires_halting running live, if_pos rfl]
    exact hretire running live
  | advances _ running passes _ machine =>
    rw [machine, retires_passing running passes]
    apply Stats.Counts.count
    unfold Core.retirement
    cases hv : m.core.memWb.valid with
    | false =>
      rw [if_neg Bool.false_ne_true, if_neg Bool.false_ne_true, List.append_nil]
      exact hs.cycle
    | true =>
      rw [if_pos rfl, if_pos rfl]
      exact hretire running (Slot.live_iff.mpr ⟨hv, (passes hv).1⟩)

end Step

structure Fresh (m : Machine) : Prop where
  empty : m.core.Empty
  running : m.core.exitCode = none
  stats : m.core.stats = {}

theorem Fresh.balanced {m : Machine} (h : m.Fresh) : m.core.Balanced := by
  obtain ⟨⟨h1, h2, h3, h4⟩, hrun, hstats⟩ := h
  rw [Core.Balanced, Core.bubbles, Core.halted, h1, h2, h3, h4, hrun, hstats]
  rfl

theorem Fresh.counts {m : Machine} (h : m.Fresh) : m.core.stats.Counts [] := by
  rw [h.stats]
  exact ⟨rfl, rfl, fun k => by cases k <;> rfl⟩

/-- After any cycles that succeed, if the counter of cycles does not overflow in
them. The other counters then do not overflow either. -/
theorem cycles_accounted (m : Machine) (hf : m.Fresh) (t : Nat) (m' : Machine)
    (h : m.after? t = some m') (room : ∀ u < t, (m.ticks u).core.exitCode = none →
      (m.ticks u).core.stats.cycles.toNat + 1 < 2 ^ 64) :
    m'.core.Balanced ∧ m'.core.stats.Counts (m.retiredWords t) := by
  induction t generalizing m' with
  | zero =>
    obtain rfl : m = m' := Option.some.inj h
    exact ⟨hf.balanced, hf.counts⟩
  | succ t ih =>
    obtain ⟨m₁, h₁, ok, rfl⟩ := after_pred h
    obtain ⟨hb, hs⟩ := ih m₁ h₁ fun u hu => room u (Nat.lt_succ_of_lt hu)
    obtain rfl := after_ticks h₁
    have hc := (hf.empty.coherent.ticks t).memWb
    have hroom := room t (Nat.lt_succ_self t)
    rw [retiredWords_succ]
    exact ⟨balanced_tick hc hb ok hroom, counts_tick hc hb hs ok hroom⟩

theorem cycles_accounted_patching : patching.Fresh ∧
    ∃ m', patching.after? 11 = some m' ∧ m'.core.exitCode = some 42 ∧ m'.core.Balanced ∧
      m'.core.stats.Counts
        [0x00000317, 0x02032283, 0x00532823, 0x00700513, 0x02a00513, 0x00100073] := by
  have hf : patching.Fresh := ⟨⟨rfl, rfl, rfl, rfl⟩, rfl, rfl⟩
  have hafter : patching.after? 11 = some (patching.ticks 11) := by decide +kernel
  have hwords : patching.retiredWords 11 =
      [0x00000317, 0x02032283, 0x00532823, 0x00700513, 0x02a00513, 0x00100073] := by
    decide +kernel
  refine ⟨hf, _, hafter, by decide +kernel, ?_⟩
  rw [← hwords]
  exact cycles_accounted _ hf 11 _ hafter (by decide +kernel)

end Machine

end FiveStage
