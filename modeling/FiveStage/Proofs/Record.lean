import FiveStage.Proofs.Coherence

/-!
# The record of a run

What a machine brings in from memory, hands on from decode, takes through the
memory stage and retires, noted cycle by cycle. The pipeline neither loses nor
doubles nor reorders an instruction, so that one number names the same
instruction in each of these lists.
-/

set_option autoImplicit false

namespace FiveStage

/-- Whether an entry stands for the instruction of a slot. What an instruction
has met on its way is not forgotten. -/
structure Slot.Bears (e f : Slot) : Prop where
  pc : e.pc = f.pc
  inst : e.inst = f.inst
  trap : e.trap = none → f.trap = none

theorem Slot.Bears.trans {d e f : Slot} (h : d.Bears e) (h' : e.Bears f) : d.Bears f :=
  ⟨h.pc.trans h'.pc, h.inst.trans h'.inst, fun ht => h'.trap (h.trap ht)⟩

theorem Issue.ofSlot_bears {f : Slot} (hv : f.valid = true) (regs : Registers) (exMem : ExMem)
    (memWb : MemWb) : (ofSlot f regs exMem memWb).entry.Bears f := by
  rcases f.legal_or_fault hv with ⟨hl, c, hc⟩ | ⟨t, -, hi⟩
  · rw [ofSlot_legal _ _ _ hl hc]
    exact ⟨rfl, rfl, fun _ => (Slot.live_iff.mp hl).2⟩
  · rw [hi]
    exact ⟨rfl, rfl, nofun⟩

theorem IdEx.execute_bears {e : IdEx} (hv : e.valid = true) (exMem : ExMem) (memWb : MemWb) :
    (e.execute exMem memWb).Bears e.toSlot := by
  unfold execute
  rw [if_pos hv]
  cases ht : e.trap with
  | none => exact ⟨rfl, rfl, fun _ => ht⟩
  | some t => exact ⟨rfl, rfl, nofun⟩

theorem ExMem.access_bears {e : ExMem} (hv : e.valid = true) (ram : Memory) :
    (e.access ram).2.Bears e.toSlot := by
  unfold access
  rw [if_neg (by simp [hv])]
  split
  · exact ⟨rfl, rfl, id⟩
  · split
    · exact ⟨rfl, rfl, id⟩
    · exact ⟨rfl, rfl, nofun⟩

namespace Machine

/-- What `pick` finds in the first `t` cycles, each with the number of its
cycle, counted from one. -/
def record {α : Type} (m : Machine) (pick : Machine → Option α) : Nat → List (Nat × α)
  | 0 => []
  | t + 1 => m.record pick t ++ ((pick (m.ticks t)).map fun a => (t + 1, a)).toList

section Record
variable {α : Type} {m : Machine} {pick : Machine → Option α} {t u n c : Nat} {a : α}

theorem record_some (h : pick (m.ticks t) = some a) :
    m.record pick (t + 1) = m.record pick t ++ [(t + 1, a)] := by
  rw [record, h]
  rfl

theorem record_none (h : pick (m.ticks t) = none) : m.record pick (t + 1) = m.record pick t := by
  rw [record, h]
  exact List.append_nil _

theorem record_length_succ (m : Machine) (pick : Machine → Option α) (t : Nat) :
    (m.record pick (t + 1)).length =
      (m.record pick t).length + (pick (m.ticks t)).isSome.toNat := by
  cases h : pick (m.ticks t) with
  | none => rw [record_none h]; rfl
  | some a => rw [record_some h]; simp

theorem record_append (m : Machine) (pick : Machine → Option α) (h : u ≤ t) :
    ∃ later, m.record pick t = m.record pick u ++ later := by
  induction h with
  | refl => exact ⟨[], (List.append_nil _).symm⟩
  | step _ ih =>
    obtain ⟨later, hl⟩ := ih
    exact ⟨_, by rw [record, hl, List.append_assoc]⟩

theorem record_length_le (m : Machine) (pick : Machine → Option α) (h : u ≤ t) :
    (m.record pick u).length ≤ (m.record pick t).length := by
  obtain ⟨later, hl⟩ := record_append m pick h
  rw [hl, List.length_append]
  exact Nat.le_add_right _ _

/-- Entry `n` of the record is noted in the cycle before which there are `n`. -/
theorem record_get : (m.record pick t)[n]? = some (c, a) ↔
    ∃ u, u < t ∧ c = u + 1 ∧ pick (m.ticks u) = some a ∧ (m.record pick u).length = n := by
  constructor
  · intro h
    induction t with
    | zero => simp [record] at h
    | succ t ih =>
      rcases Nat.lt_or_ge n (m.record pick t).length with hlt | hge
      · rw [record, List.getElem?_append_left hlt] at h
        obtain ⟨u, hu, hn⟩ := ih h
        exact ⟨u, Nat.lt_succ_of_lt hu, hn⟩
      · cases hp : pick (m.ticks t) with
        | none =>
          rw [record_none hp, List.getElem?_eq_none hge] at h
          exact absurd h nofun
        | some b =>
          have hn : n - (m.record pick t).length = 0 := by
            have hlen := (List.getElem?_eq_some_iff.mp h).1
            rw [record_some hp, List.length_append, List.length_singleton] at hlen
            omega
          rw [record_some hp, List.getElem?_append_right hge, hn] at h
          obtain ⟨rfl, rfl⟩ := Prod.mk.inj (Option.some.inj h)
          exact ⟨t, Nat.lt_succ_self t, rfl, hp, by omega⟩
  · rintro ⟨u, hu, rfl, hp, rfl⟩
    obtain ⟨later, hl⟩ := record_append m pick (Nat.succ_le_of_lt hu)
    rw [hl, Nat.succ_eq_add_one, record_some hp]
    simp

theorem record_lt (h : (m.record pick t)[n]? = some (c, a)) (u : Nat) :
    n < (m.record pick u).length ↔ c ≤ u := by
  obtain ⟨v, -, rfl, hp, rfl⟩ := record_get.mp h
  constructor
  · intro hlt
    refine Nat.succ_le_of_lt (Nat.lt_of_not_le fun hle => ?_)
    exact Nat.not_lt.mpr (record_length_le m pick hle) hlt
  · intro hle
    have hlen := record_length_le m pick hle
    rw [record_length_succ, hp] at hlen
    exact hlen

end Record

def fetched? (m : Machine) : Option Slot :=
  let after := m.tick.machine.core
  if m.advances && after.lastDecision == .noAction then some after.ifId else none

def issued? (m : Machine) : Option (Slot × Bool) :=
  let after := m.tick.machine.core
  if m.advances && m.core.ifId.valid && after.lastDecision != .stall then
    some (m.core.ifId, m.core.decoded.jump)
  else none

def accessed? (m : Machine) : Option ExMem :=
  if m.advances && m.core.exMem.valid then some m.core.exMem else none

def retired? (m : Machine) : Option MemWb :=
  if m.retires then some m.core.memWb else none

def fetches (m : Machine) (t : Nat) : List (Nat × Slot) := m.record fetched? t
def issues (m : Machine) (t : Nat) : List (Nat × Slot × Bool) := m.record issued? t
def accesses (m : Machine) (t : Nat) : List (Nat × ExMem) := m.record accessed? t
def commits (m : Machine) (t : Nat) : List (Nat × MemWb) := m.record retired? t

section Cycle
variable {m : Machine}

theorem tick_advancing (h : m.core.memWb.Coherent) (ha : m.advances = true) :
    m.tick.machine = ⟨m.core.next m.ram, (m.core.exMem.access m.ram).1⟩ := by
  cases turn h with
  | rests stuck | traps stuck | halts stuck => exact absurd (stuck.symm.trans ha) nofun
  | advances _ _ _ _ machine => exact machine

theorem tick_stuck (h : m.core.memWb.Coherent) (ha : m.advances = false) :
    m.tick.machine.ram = m.ram ∧ m.tick.machine.core.ifId = m.core.ifId := by
  cases turn h with
  | rests _ _ stays =>
    rw [stays]
    exact ⟨rfl, rfl⟩
  | traps _ _ _ _ _ _ machine | halts _ _ _ _ _ machine =>
    rw [machine]
    exact ⟨rfl, rfl⟩
  | advances goes => exact absurd (ha.symm.trans goes) nofun

theorem fetched_advancing (h : m.core.memWb.Coherent) (ha : m.advances = true) :
    m.fetched? = if m.core.decided = .noAction then
      some (Slot.fetch (m.core.exMem.access m.ram).1 m.core.pc) else none := by
  simp only [fetched?, ha, tick_advancing h ha, Core.next, Bool.true_and, beq_iff_eq]
  cases m.core.decided <;> rfl

theorem issued_advancing (h : m.core.memWb.Coherent) (ha : m.advances = true) :
    m.issued? = if m.core.decided = .stall then none
      else if m.core.ifId.valid then some (m.core.ifId, m.core.decoded.jump) else none := by
  simp only [issued?, ha, tick_advancing h ha, Core.next, Bool.true_and]
  cases m.core.decided <;> cases m.core.ifId.valid <;> rfl

theorem accessed_advancing (ha : m.advances = true) :
    m.accessed? = if m.core.exMem.valid then some m.core.exMem else none := by
  rw [accessed?, ha, Bool.true_and]

theorem accessed_some {x : ExMem} (hx : m.accessed? = some x) :
    m.advances = true ∧ x.valid = true ∧ x = m.core.exMem := by
  unfold accessed? at hx
  split at hx
  · rename_i hgo
    obtain rfl := Option.some.inj hx
    obtain ⟨ha, hv⟩ := Bool.and_eq_true_iff.mp hgo
    exact ⟨ha, hv, rfl⟩
  · exact absurd hx nofun

theorem retired_some {e : MemWb} (he : m.retired? = some e) :
    m.retires = true ∧ e.live = true ∧ e = m.core.memWb := by
  unfold retired? at he
  split at he
  · rename_i hr
    obtain rfl := Option.some.inj he
    exact ⟨hr, (Bool.and_eq_true_iff.mp hr).2, rfl⟩
  · exact absurd he nofun

theorem valid_advancing (h : m.core.memWb.Coherent) (ha : m.advances = true) :
    m.core.ifId.valid.toNat + m.fetched?.isSome.toNat =
        m.issued?.isSome.toNat + m.tick.machine.core.ifId.valid.toNat ∧
      m.tick.machine.core.idEx.valid = m.issued?.isSome ∧
      m.tick.machine.core.exMem.valid = m.core.idEx.valid ∧
      m.tick.machine.core.memWb.valid = m.core.exMem.valid := by
  rw [fetched_advancing h ha, issued_advancing h ha, tick_advancing h ha]
  refine ⟨?_, ?_, IdEx.execute_valid _ _ _, ExMem.access_valid _ _⟩
  · simp only [Core.next]
    cases m.core.decided <;> cases m.core.ifId.valid <;> simp [Slot.fetch_valid]
  · have hv := m.core.decoded_valid
    simp only [Core.next]
    cases m.core.decided <;> cases hi : m.core.ifId.valid <;> simp [hv, hi]

theorem advances_of_picks (h : m.fetched?.isSome = true ∨ m.issued?.isSome = true) :
    m.advances = true := by
  cases ha : m.advances with
  | true => rfl
  | false => simp [fetched?, issued?, ha] at h

theorem picks_stuck (h : m.advances = false) :
    m.fetched? = none ∧ m.issued? = none ∧ m.accessed? = none := by
  simp [fetched?, issued?, accessed?, h]

end Cycle

section Run
variable {m₀ : Machine} {t u v : Nat}

theorem ticks_advancing (h : (m₀.ticks t).core.memWb.Coherent)
    (ha : (m₀.ticks t).advances = true) :
    m₀.ticks (t + 1) = ⟨(m₀.ticks t).core.next (m₀.ticks t).ram,
      ((m₀.ticks t).core.exMem.access (m₀.ticks t).ram).1⟩ :=
  tick_advancing h ha

/-- A machine that has stopped advancing does not begin again. -/
theorem advances_before (h : (m₀.ticks t).core.memWb.Coherent)
    (ha : (m₀.ticks (t + 1)).advances = true) : (m₀.ticks t).advances = true := by
  rw [ticks] at ha
  cases turn h with
  | rests stuck _ stays =>
    rw [stays] at ha
    exact absurd (stuck.symm.trans ha) Bool.false_ne_true
  | traps _ _ _ hv ht _ machine =>
    rw [machine] at ha
    simp [advances, hv, ht] at ha
  | halts _ _ _ _ _ machine =>
    rw [machine] at ha
    simp [advances, Core.halted] at ha
  | advances goes => exact goes

theorem advances_before_retiring {m : Machine} (h : m.core.memWb.Coherent)
    (hr : m.tick.machine.retires = true) : m.advances = true := by
  simp only [retires, Bool.and_eq_true, Bool.not_eq_true'] at hr
  obtain ⟨hrun, hl⟩ := hr
  cases turn h with
  | rests _ halted stays =>
    rw [stays] at hrun
    cases hrun.symm.trans halted
  | traps _ _ t _ trap _ machine =>
    rw [machine] at hl
    cases (Slot.live_iff.mp hl).2.symm.trans trap
  | halts _ _ _ _ _ machine =>
    rw [machine] at hrun
    cases hrun
  | advances goes => exact goes

/-- Each instruction that has passed a stage has passed the next one or is in
the latch between them. -/
structure Balance (m₀ : Machine) (t : Nat) : Prop where
  decode : (m₀.fetches t).length =
    (m₀.issues t).length + (m₀.ticks t).core.ifId.valid.toNat
  memory : (m₀.issues t).length = (m₀.accesses t).length +
    (m₀.ticks t).core.exMem.valid.toNat + (m₀.ticks t).core.idEx.valid.toNat
  writeback : (m₀.accesses t).length =
    (m₀.commits t).length + (m₀.ticks t).core.memWb.valid.toNat

theorem lengths_succ (m₀ : Machine) (t : Nat) :
    (m₀.fetches (t + 1)).length = (m₀.fetches t).length + (m₀.ticks t).fetched?.isSome.toNat ∧
      (m₀.issues (t + 1)).length = (m₀.issues t).length + (m₀.ticks t).issued?.isSome.toNat ∧
      (m₀.accesses (t + 1)).length =
        (m₀.accesses t).length + (m₀.ticks t).accessed?.isSome.toNat ∧
      (m₀.commits (t + 1)).length = (m₀.commits t).length + (m₀.ticks t).retires.toNat := by
  refine ⟨record_length_succ _ _ _, record_length_succ _ _ _, record_length_succ _ _ _, ?_⟩
  rw [commits, record_length_succ, retired?]
  cases (m₀.ticks t).retires <;> rfl

theorem accesses_advancing (m₀ : Machine) (ha : (m₀.ticks t).advances = true) :
    (m₀.accesses (t + 1)).length =
      (m₀.accesses t).length + (m₀.ticks t).core.exMem.valid.toNat := by
  rw [(m₀.lengths_succ t).2.2.1, accessed_advancing ha]
  cases (m₀.ticks t).core.exMem.valid <;> rfl

theorem Balance.succ (hb : m₀.Balance t) (h : (m₀.ticks t).core.memWb.Coherent) :
    m₀.Balance (t + 1) := by
  obtain ⟨hf, hi, ha, hc⟩ := m₀.lengths_succ t
  obtain ⟨b1, b2, b3⟩ := hb
  have hstuck (hs : (m₀.ticks t).advances = false) :
      (m₀.ticks t).fetched?.isSome.toNat = 0 ∧ (m₀.ticks t).issued?.isSome.toNat = 0 ∧
        (m₀.ticks t).accessed?.isSome.toNat = 0 := by
    obtain ⟨h1, h2, h3⟩ := picks_stuck hs
    rw [h1, h2, h3]
    exact ⟨rfl, rfl, rfl⟩
  cases turn h with
  | rests stuck halted stays =>
    obtain ⟨h1, h2, h3⟩ := hstuck stuck
    rw [retires_halted halted, Bool.toNat_false] at hc
    have hm : m₀.ticks (t + 1) = m₀.ticks t := congrArg Tick.machine stays
    constructor <;> rw [hm] <;> omega
  | traps stuck _ _ _ trap _ machine =>
    obtain ⟨h1, h2, h3⟩ := hstuck stuck
    rw [retires_trapping trap, Bool.toNat_false] at hc
    constructor <;> rw [ticks, machine] <;> dsimp only <;> omega
  | halts stuck running live _ _ machine =>
    obtain ⟨h1, h2, h3⟩ := hstuck stuck
    rw [retires_halting running live, Bool.toNat_true] at hc
    rw [(Slot.live_iff.mp live).1, Bool.toNat_true] at b3
    constructor <;> rw [ticks, machine] <;> simp only [Bool.toNat_false] <;> omega
  | advances goes running passes _ machine =>
    obtain ⟨h1, h2, h3, h4⟩ := valid_advancing h goes
    rw [retires_passing running passes] at hc
    have ha := m₀.accesses_advancing goes
    constructor <;> simp only [ticks, h2, h3, h4] <;> omega

theorem balance (h : m₀.core.Empty) (t : Nat) : m₀.Balance t := by
  induction t with
  | zero =>
    constructor <;> simp only [fetches, issues, accesses, commits, record, ticks, h.ifId, h.idEx,
      h.exMem, h.memWb] <;> rfl
  | succ t ih => exact ih.succ (h.coherent.ticks t).memWb

theorem issued_some {m : Machine} {f : Slot} {jump : Bool} (h : m.core.memWb.Coherent)
    (hi : m.issued? = some (f, jump)) :
    m.advances = true ∧ m.core.ifId.valid = true ∧ m.core.decided ≠ .stall ∧
      f = m.core.ifId ∧ jump = m.core.decoded.jump := by
  have ha : m.advances = true := advances_of_picks (.inr (by simp [hi]))
  rw [issued_advancing h ha] at hi
  split at hi
  · exact absurd hi nofun
  · rename_i hgo
    split at hi
    · rename_i hv
      obtain ⟨rfl, rfl⟩ := Prod.mk.inj (Option.some.inj hi)
      exact ⟨ha, hv, hgo, rfl, rfl⟩
    · exact absurd hi nofun

theorem issued_of_valid {m : Machine} (h : m.core.memWb.Coherent) (ha : m.advances = true)
    (hv : m.tick.machine.core.idEx.valid = true) :
    m.issued? = some (m.core.ifId, m.core.decoded.jump) := by
  rw [(valid_advancing h ha).2.1] at hv
  obtain ⟨⟨f, jump⟩, hp⟩ := Option.isSome_iff_exists.mp hv
  obtain ⟨-, -, -, rfl, rfl⟩ := issued_some h hp
  exact hp

theorem exMem_executed (h : m₀.core.Empty) (ha : (m₀.ticks v).advances = true)
    (hv : (m₀.ticks v).core.exMem.valid = true) :
    ∃ u, v = u + 1 ∧ (m₀.ticks u).advances = true ∧ (m₀.ticks u).core.idEx.valid = true ∧
      (m₀.ticks v).core.exMem.Bears (m₀.ticks u).core.idEx.toSlot := by
  cases v with
  | zero => exact absurd hv (by rw [ticks, h.exMem]; exact Bool.false_ne_true)
  | succ u =>
    have hc := (h.coherent.ticks u).memWb
    have ha' := advances_before hc ha
    have hv' : (m₀.ticks u).core.idEx.valid = true := by
      rwa [ticks, (valid_advancing hc ha').2.2.1] at hv
    rw [ticks_advancing hc ha']
    exact ⟨u, rfl, ha', hv', IdEx.execute_bears hv' _ _⟩

theorem idEx_issued (h : m₀.core.Empty) (ha : (m₀.ticks v).advances = true)
    (hv : (m₀.ticks v).core.idEx.valid = true) :
    ∃ u f jump, v = u + 1 ∧ (m₀.ticks u).advances = true ∧
      (m₀.ticks u).issued? = some (f, jump) ∧ (m₀.ticks v).core.idEx.Bears f := by
  cases v with
  | zero => exact absurd hv (by rw [ticks, h.idEx]; exact Bool.false_ne_true)
  | succ u =>
    have hc := (h.coherent.ticks u).memWb
    have ha' := advances_before hc ha
    have hi := issued_of_valid hc ha' hv
    obtain ⟨-, hvalid, hgo, -⟩ := issued_some hc hi
    rw [ticks_advancing hc ha']
    simp only [Core.next, if_neg hgo]
    exact ⟨u, _, _, rfl, ha', hi, Issue.ofSlot_bears hvalid _ _ _⟩

theorem accessed_issued (h : m₀.core.Empty) {x : ExMem} (hx : (m₀.ticks v).accessed? = some x) :
    ∃ u f jump, v = u + 2 ∧ (m₀.ticks u).issued? = some (f, jump) ∧ x.Bears f ∧
      (m₀.accesses v).length = (m₀.issues u).length := by
  obtain ⟨ha, hv, rfl⟩ := accessed_some hx
  obtain ⟨w, rfl, ha1, hv1, hexecuted⟩ := exMem_executed h ha hv
  obtain ⟨u, f, jump, rfl, ha0, hi, hissued⟩ := idEx_issued h ha1 hv1
  have hstep := m₀.accesses_advancing ha0
  have hlast := m₀.accesses_advancing ha1
  rw [ticks, (valid_advancing (h.coherent.ticks u).memWb ha0).2.2.1] at hlast
  have hb := (balance h u).memory
  exact ⟨u, f, jump, rfl, hi, hexecuted.trans hissued, by omega⟩

theorem retired_accessed (h : m₀.core.Empty) {e : MemWb} (he : (m₀.ticks v).retired? = some e) :
    ∃ u x, v = u + 1 ∧ (m₀.ticks u).accessed? = some x ∧ e = (x.access (m₀.ticks u).ram).2 ∧
      e.live = true ∧ (m₀.commits v).length = (m₀.accesses u).length := by
  obtain ⟨hr, hl, rfl⟩ := retired_some he
  have hv := (Slot.live_iff.mp hl).1
  cases v with
  | zero => exact absurd hv (by rw [ticks, h.memWb]; exact Bool.false_ne_true)
  | succ u =>
    have hc := (h.coherent.ticks u).memWb
    have ha : (m₀.ticks u).advances = true := advances_before_retiring hc hr
    have hx : (m₀.ticks u).core.exMem.valid = true := by
      rwa [ticks, (valid_advancing hc ha).2.2.2] at hv
    have hb := (balance h (u + 1)).writeback
    rw [hv, Bool.toNat_true, m₀.accesses_advancing ha, hx, Bool.toNat_true] at hb
    refine ⟨u, (m₀.ticks u).core.exMem, rfl, ?_, ?_, hl, by omega⟩
    · rw [accessed_advancing ha, if_pos hx]
    · rw [ticks_advancing hc ha]
      rfl

theorem decoding_fetched (h : m₀.core.Empty) (t : Nat)
    (hv : (m₀.ticks t).core.ifId.valid = true) :
    ∃ c, (m₀.fetches t)[(m₀.issues t).length]? = some (c, (m₀.ticks t).core.ifId) := by
  have hc : ∀ t, (m₀.ticks t).core.memWb.Coherent := fun t => (h.coherent.ticks t).memWb
  induction t with
  | zero => exact absurd hv (by rw [ticks, h.ifId]; exact Bool.false_ne_true)
  | succ t ih =>
    -- whatever becomes of the cycle, an entry that stays in decode keeps its number
    have hkeep (hsame : (m₀.ticks (t + 1)).core.ifId = (m₀.ticks t).core.ifId)
        (hnone : (m₀.ticks t).issued? = none) :
        ∃ c, (m₀.fetches (t + 1))[(m₀.issues (t + 1)).length]? =
          some (c, (m₀.ticks (t + 1)).core.ifId) := by
      rw [hsame] at hv ⊢
      obtain ⟨c, hget⟩ := ih hv
      obtain ⟨later, hl⟩ := record_append m₀ fetched? (Nat.le_succ t)
      have hlt := (List.getElem?_eq_some_iff.mp hget).1
      refine ⟨c, ?_⟩
      rw [issues, record_none hnone, fetches, hl]
      exact (List.getElem?_append_left hlt).trans hget
    cases ha : (m₀.ticks t).advances with
    | false => exact hkeep (tick_stuck (hc t) ha).2 (picks_stuck ha).2.1
    | true =>
      have hi := issued_advancing (hc t) ha
      have hm := ticks_advancing (hc t) ha
      cases hd : (m₀.ticks t).core.decided with
      | stall =>
        rw [hd, if_pos rfl] at hi
        exact hkeep (by rw [hm]; simp only [Core.next, hd]) hi
      | flush =>
        rw [hm] at hv
        simp [Core.next, hd] at hv
      | noAction =>
        have hf := fetched_advancing (hc t) ha
        rw [if_pos hd] at hf
        have hb := (balance h t).decode
        have hb' := (balance h (t + 1)).decode
        rw [hv, (m₀.lengths_succ t).1, hf] at hb'
        refine ⟨t + 1, record_get.mpr ⟨t, Nat.lt_succ_self t, rfl, ?_, ?_⟩⟩
        · rw [hf, hm]
          simp only [Core.next, hd]
        · exact Nat.succ.inj hb'

theorem fetched_some {m : Machine} {f : Slot} (h : m.core.memWb.Coherent)
    (hf : m.fetched? = some f) :
    m.advances = true ∧ m.core.decided = .noAction ∧
      f = Slot.fetch (m.core.exMem.access m.ram).1 m.core.pc := by
  have ha : m.advances = true := advances_of_picks (.inl (by simp [hf]))
  rw [fetched_advancing h ha] at hf
  split at hf
  · rename_i hd
    exact ⟨ha, hd, (Option.some.inj hf).symm⟩
  · exact absurd hf nofun

/-- The store of a cycle is made before its fetch. -/
theorem fetched_source (h : m₀.core.Empty) {f : Slot} (hf : (m₀.ticks v).fetched? = some f) :
    f = Slot.fetch (m₀.ticks (v + 1)).ram f.pc := by
  have hc := (h.coherent.ticks v).memWb
  obtain ⟨ha, -, rfl⟩ := fetched_some hc hf
  rw [ticks_advancing hc ha, Slot.fetch_pc]

/-- An instruction is fetched when the one before it leaves decode, or in the
next cycle if that one takes the pc elsewhere. -/
theorem fetched_after (h : m₀.core.Empty) {f : Slot} (hf : (m₀.ticks v).fetched? = some f) :
    (m₀.fetches v).length = 0 ∨
      ∃ u g jump, (m₀.ticks u).issued? = some (g, jump) ∧ v = u + jump.toNat ∧
        (m₀.fetches v).length = (m₀.issues u).length + 1 := by
  have hc : ∀ t, (m₀.ticks t).core.memWb.Coherent := fun t => (h.coherent.ticks t).memWb
  obtain ⟨ha, hd, -⟩ := fetched_some (hc v) hf
  have hb := (balance h v).decode
  cases hv : (m₀.ticks v).core.ifId.valid with
  | true =>
    have hi := issued_advancing (hc v) ha
    rw [if_neg (by simp [hd]), if_pos hv] at hi
    rw [hv, Bool.toNat_true] at hb
    exact .inr ⟨v, _, _, hi, by simp [Core.going_straight hd], hb⟩
  -- decode is empty at the start, and else after a flush
  | false =>
    match v with
    | 0 => exact .inl rfl
    | u + 1 =>
      have ha0 := advances_before (hc u) ha
      have hi := issued_advancing (hc u) ha0
      have hempty : (m₀.ticks u).core.decided = .flush := by
        rw [ticks_advancing (hc u) ha0] at hv
        cases hd0 : (m₀.ticks u).core.decided with
        | noAction => simp [Core.next, hd0, Slot.fetch_valid] at hv
        | stall =>
          simp only [Core.next, hd0] at hv
          exact absurd (hv.symm.trans (Core.decided_valid (by simp [hd0]))) Bool.false_ne_true
        | flush => rfl
      have hv0 : (m₀.ticks u).core.ifId.valid = true := Core.decided_valid (by simp [hempty])
      rw [if_neg (by simp [hempty]), if_pos hv0] at hi
      rw [hv, (m₀.lengths_succ u).2.1, hi] at hb
      exact .inr ⟨u, _, _, hi, by simp [Core.going_elsewhere hempty], hb⟩

end Run

end Machine

end FiveStage
