import FiveStage.Proofs.Record

/-!
# Which stores the word of an instruction shows

Fetch reads memory behind the store of the same cycle, but the instructions
before the one it fetches may not have come to the memory stage yet. Of the
instruction just before, a word never shows the store; of the one before that,
it does if something came between their leaving decode and the fetch; of all
earlier ones it does. No program is excluded.
-/

set_option autoImplicit false

namespace FiveStage

theorem Slot.fetch_word {ram : Memory} {f : Slot} (h : f = Slot.fetch ram f.pc)
    (ht : f.trap = none) : ram.fetch f.pc = .ok f.inst := by
  unfold Slot.fetch at h
  split at h
  · rename_i hw
    rw [h]
    exact hw
  · rw [h] at ht
    exact absurd ht nofun

/-- Takes entries through the memory stage one after the other, the first of
them numbered `k`. Those that are not selected are left out. -/
def Memory.replay (ram : Memory) (selected : Nat → Bool) : Nat → List ExMem → Memory
  | _, [] => ram
  | k, x :: xs =>
    Memory.replay (if selected k then (x.access ram).1 else ram) selected (k + 1) xs

namespace Memory

variable {p q : Nat → Bool}

theorem replay_append (ram : Memory) (k : Nat) (xs ys : List ExMem) :
    ram.replay p k (xs ++ ys) = (ram.replay p k xs).replay p (k + xs.length) ys := by
  induction xs generalizing ram k with
  | nil => rfl
  | cons x xs ih =>
    rw [List.cons_append, replay, ih, replay, List.length_cons, Nat.add_right_comm, Nat.add_assoc]

theorem replay_congr (ram : Memory) (k : Nat) (xs : List ExMem)
    (h : ∀ j, k ≤ j → j < k + xs.length → p j = q j) : ram.replay p k xs = ram.replay q k xs := by
  induction xs generalizing ram k with
  | nil => rfl
  | cons x xs ih =>
    rw [List.length_cons] at h
    rw [replay, replay, h k (Nat.le_refl k) (by omega)]
    exact ih _ _ fun j hj hlt => h j (by omega) (by omega)

theorem replay_nothing (ram : Memory) (k : Nat) (xs : List ExMem)
    (h : ∀ j, k ≤ j → p j = false) : ram.replay p k xs = ram := by
  induction xs generalizing k with
  | nil => rfl
  | cons x xs ih =>
    rw [replay, h k (Nat.le_refl k), if_neg Bool.false_ne_true]
    exact ih _ fun j hj => h j (Nat.le_of_succ_le hj)

end Memory

/-- What became of an instruction: the slot fetched for it and the cycle of the
fetch, the cycle in which it left decode and whether it took the pc elsewhere,
the entry that went through the memory stage and the cycle of that. -/
structure Life where
  slot : Slot
  fetched : Nat
  left : Nat
  redirects : Bool
  entry : ExMem
  accessed : Nat

namespace Machine

def life? (m : Machine) (t n : Nat) : Option Life :=
  match (m.fetches t)[n]?, (m.issues t)[n]?, (m.accesses t)[n]? with
  | some (fetched, slot), some (left, _, redirects), some (accessed, entry) =>
    some ⟨slot, fetched, left, redirects, entry, accessed⟩
  | _, _, _ => none

/-- The memory that the first `t` cycles would have left if only the selected
instructions had made their stores. -/
def ramWith (m : Machine) (t : Nat) (selected : Nat → Bool) : Memory :=
  m.ram.replay selected 0 ((m.accesses t).map Prod.snd)

def storedBy (m : Machine) (t c k : Nat) : Bool :=
  match m.life? t k with
  | some l => l.accessed ≤ c
  | none => false

def givesWay (m : Machine) (t k : Nat) : Bool :=
  match m.life? t k, m.life? t (k + 1) with
  | some l, some behind => l.left + 1 < behind.left || behind.redirects
  | _, _ => false

def shows (m : Machine) (t n k : Nat) : Bool :=
  k + 3 ≤ n || n == k + 2 && m.givesWay t k

/-- A slot is fetched from the memory that its cycle leaves. Its word does not show
the store of the instruction just before, shows that of the one before it if
something came between them, and shows all earlier ones. -/
structure FetchOrder (m : Machine) (t : Nat) : Prop where
  retired : ∀ n c e, (m.commits t)[n]? = some (c, e) → ∃ l, m.life? t n = some l ∧
    (m.issues t)[n]? = some (l.left, l.slot, l.redirects) ∧ l.accessed = l.left + 2 ∧
    c = l.left + 3 ∧ l.entry.Bears l.slot ∧ e.Bears l.slot ∧ l.slot.trap = none
  source : ∀ n l, m.life? t n = some l → l.slot = Slot.fetch (m.ticks l.fetched).ram l.slot.pc
  ram : ∀ c ≤ t, (m.ticks c).ram = m.ramWith t (m.storedBy t c)
  next : ∀ k l later, m.life? t k = some l → m.life? t (k + 1) = some later →
    later.fetched < l.accessed
  second : ∀ k l behind later, m.life? t k = some l → m.life? t (k + 1) = some behind →
    m.life? t (k + 2) = some later →
    (l.accessed ≤ later.fetched ↔ l.left + 1 < behind.left ∨ behind.redirects = true)
  third : ∀ k n l later, k + 3 ≤ n → m.life? t k = some l → m.life? t n = some later →
    l.accessed ≤ later.fetched
  word : ∀ n c e, (m.commits t)[n]? = some (c, e) →
    (m.ramWith t (m.shows t n)).fetch e.pc = .ok e.inst

variable {m : Machine} {t n k : Nat} {l later : Life}

theorem life_some : m.life? t n = some l ↔ (m.fetches t)[n]? = some (l.fetched, l.slot) ∧
    (∃ f, (m.issues t)[n]? = some (l.left, f, l.redirects)) ∧
      (m.accesses t)[n]? = some (l.accessed, l.entry) := by
  unfold life?
  constructor
  · intro h
    split at h
    · rename_i hf hi ha
      obtain rfl := Option.some.inj h
      exact ⟨hf, ⟨_, hi⟩, ha⟩
    · exact absurd h nofun
  · rintro ⟨hf, ⟨f, hi⟩, ha⟩
    rw [hf, hi, ha]

theorem life_exists (h : m.core.Empty) (hk : k < (m.accesses t).length) :
    ∃ l, m.life? t k = some l := by
  obtain ⟨hd, hm, -⟩ := balance h t
  have hi : k < (m.issues t).length := by omega
  have hf : k < (m.fetches t).length := by omega
  exact ⟨⟨_, _, _, _, _, _⟩, life_some.mpr ⟨List.getElem?_eq_getElem hf,
    ⟨_, List.getElem?_eq_getElem hi⟩, List.getElem?_eq_getElem hk⟩⟩

theorem life_lt (h : m.life? t n = some l) : n < (m.accesses t).length :=
  (List.getElem?_eq_some_iff.mp (life_some.mp h).2.2).1

/-- An instruction is in the memory stage two cycles after it has left decode,
and it was fetched before that. -/
theorem life_stages (h : m.core.Empty) (hl : m.life? t n = some l) :
    (m.issues t)[n]? = some (l.left, l.slot, l.redirects) ∧ l.fetched < l.left ∧
      l.accessed = l.left + 2 ∧ l.entry.Bears l.slot := by
  obtain ⟨hf, ⟨f, hi⟩, ha⟩ := life_some.mp hl
  obtain ⟨v, hv, hacc, hx, hlen⟩ := record_get.mp ha
  obtain ⟨u, g, jump, rfl, hu, hb, hlen'⟩ := accessed_issued h hx
  have hi' : (m.issues t)[n]? = some (u + 1, g, jump) :=
    record_get.mpr ⟨u, by omega, rfl, hu, hlen'.symm.trans hlen⟩
  obtain ⟨hleft, hrest⟩ := Prod.mk.inj (Option.some.inj (hi.symm.trans hi'))
  obtain ⟨rfl, hjump⟩ := Prod.mk.inj hrest
  obtain ⟨-, hvalid, -, hslot, -⟩ := issued_some (h.coherent.ticks u).memWb hu
  obtain ⟨c, hc⟩ := decoding_fetched h u hvalid
  obtain ⟨w, hw, rfl, hpick, hnum⟩ := record_get.mp hc
  have hf' : (m.fetches t)[n]? = some (w + 1, (m.ticks u).core.ifId) :=
    record_get.mpr ⟨w, by omega, rfl, hpick, hnum.trans (hlen'.symm.trans hlen)⟩
  obtain ⟨hfetched, hsame⟩ := Prod.mk.inj (Option.some.inj (hf.symm.trans hf'))
  rw [hi, hsame, hslot, hleft, hfetched, hacc]
  exact ⟨rfl, by omega, rfl, hslot ▸ hb⟩

/-- The next instruction is fetched at once, or a cycle later from elsewhere. -/
theorem life_next (h : m.core.Empty) (hl : m.life? t n = some l)
    (hn : m.life? t (n + 1) = some later) : later.fetched = l.left + l.redirects.toNat := by
  obtain ⟨hi, -⟩ := life_stages h hl
  obtain ⟨v, hv, hc, hf, hlen⟩ := record_get.mp (life_some.mp hn).1
  rcases fetched_after h hf with h0 | ⟨u, g, jump, hu, rfl, hnum⟩
  · exact absurd (h0.symm.trans hlen) nofun
  · have hi' : (m.issues t)[n]? = some (u + 1, g, jump) :=
      record_get.mpr ⟨u, by omega, rfl, hu, Nat.succ.inj (hnum.symm.trans hlen)⟩
    obtain ⟨hleft, hrest⟩ := Prod.mk.inj (Option.some.inj (hi.symm.trans hi'))
    rw [hc, hleft, (Prod.mk.inj hrest).2]
    omega

theorem life_lt_left (h : m.core.Empty) (hk : m.life? t k = some l)
    (hn : m.life? t n = some later) (hlt : k < n) : l.left < later.left := by
  obtain ⟨hi, -⟩ := life_stages h hk
  obtain ⟨hi', -⟩ := life_stages h hn
  obtain ⟨u, -, hc, -, rfl⟩ := record_get.mp hi'
  rw [hc]
  exact Nat.lt_succ_of_le ((record_lt hi u).mp hlt)

theorem ram_accesses (h : m.core.Empty) (t : Nat) :
    (m.ticks t).ram = m.ramWith t fun _ => true := by
  induction t with
  | zero => rfl
  | succ t ih =>
    have hc := (h.coherent.ticks t).memWb
    cases ha : (m.ticks t).advances with
    | false =>
      rw [ticks, (tick_stuck hc ha).1, ih, ramWith, ramWith, accesses, accesses, record_none (picks_stuck ha).2.2]
    | true =>
      have hx := accessed_advancing ha
      rw [ticks_advancing hc ha]
      dsimp only
      split at hx
      · rw [ramWith, accesses, record_some hx, List.map_append, Memory.replay_append]
        exact congrArg (fun ram => ((m.ticks t).core.exMem.access ram).1) ih
      · rename_i hv
        rw [(ExMem.access_dead _ _ (by simp [Slot.live, hv])).2, ih, ramWith, ramWith, accesses,
          accesses, record_none hx]

theorem ramWith_congr {p q : Nat → Bool} (h : ∀ k < (m.accesses t).length, p k = q k) :
    m.ramWith t p = m.ramWith t q := by
  refine Memory.replay_congr _ _ _ fun k _ hk => h k ?_
  simpa using hk

theorem ramWith_first (h : m.core.Empty) {c : Nat} (hc : c ≤ t) :
    m.ramWith t (fun k => k < (m.accesses c).length) = (m.ticks c).ram := by
  obtain ⟨after, hafter⟩ := record_append m accessed? hc
  have hsplit : m.accesses t = m.accesses c ++ after := hafter
  have hlater : ∀ j, 0 + ((m.accesses c).map Prod.snd).length ≤ j →
      decide (j < (m.accesses c).length) = false := by simp
  rw [ram_accesses h c, ramWith, ramWith, hsplit, List.map_append, Memory.replay_append,
    Memory.replay_nothing _ _ _ hlater]
  exact Memory.replay_congr _ _ _ fun j _ hj => by simpa using hj

theorem ram_storedBy (h : m.core.Empty) {c : Nat} (hc : c ≤ t) :
    (m.ticks c).ram = m.ramWith t (m.storedBy t c) := by
  rw [← ramWith_first h hc]
  refine ramWith_congr fun k hk => ?_
  obtain ⟨l, hl⟩ := life_exists h hk
  simp only [storedBy, hl]
  exact decide_eq_decide.mpr (record_lt (life_some.mp hl).2.2 c)

section Behind
variable {behind : Life}

theorem fetched_before (h : m.core.Empty) (hk : m.life? t k = some l)
    (hn : m.life? t n = some later) (hle : n ≤ k + 1) : later.fetched < l.accessed := by
  obtain ⟨-, -, hacc, -⟩ := life_stages h hk
  rcases Nat.lt_or_eq_of_le hle with hlt | rfl
  · obtain ⟨-, hfetched, -⟩ := life_stages h hn
    rcases Nat.lt_or_eq_of_le (Nat.le_of_lt_succ hlt) with hlt' | rfl
    · have hleft := life_lt_left h hn hk hlt'
      omega
    · obtain rfl : l = later := Option.some.inj (hk.symm.trans hn)
      omega
  · have hnext := life_next h hk hn
    have hbit := Bool.toNat_le l.redirects
    omega

theorem fetched_second (h : m.core.Empty) (hk : m.life? t k = some l)
    (hb : m.life? t (k + 1) = some behind) (hn : m.life? t (k + 2) = some later) :
    l.accessed ≤ later.fetched ↔ l.left + 1 < behind.left ∨ behind.redirects = true := by
  obtain ⟨-, -, hacc, -⟩ := life_stages h hk
  have hleft := life_lt_left h hk hb (Nat.lt_succ_self k)
  have hnext := life_next h hb hn
  cases hj : behind.redirects with
  | false =>
    rw [hj, Bool.toNat_false] at hnext
    simp only [Bool.false_eq_true, or_false]
    omega
  | true =>
    rw [hj, Bool.toNat_true] at hnext
    simp only [or_true, iff_true]
    omega

theorem fetched_third (h : m.core.Empty) (hk : m.life? t k = some l)
    (hn : m.life? t n = some later) (hle : k + 3 ≤ n) : l.accessed ≤ later.fetched := by
  obtain ⟨-, -, hacc, -⟩ := life_stages h hk
  obtain ⟨p, rfl⟩ := Nat.exists_eq_add_of_le' (Nat.le_of_add_left_le hle : 1 ≤ n)
  have hlt := life_lt hn
  obtain ⟨second, hs⟩ := life_exists (k := k + 1) h (t := t) (by omega)
  obtain ⟨before, hp⟩ := life_exists (k := p) h (t := t) (by omega)
  have h1 := life_lt_left h hk hs (Nat.lt_succ_self k)
  have h2 := life_lt_left h hs hp (by omega)
  have hnext := life_next h hp hn
  omega

end Behind

/-- The stores that a word shows are those made by the end of its fetch. -/
theorem shows_storedBy (h : m.core.Empty) (hn : m.life? t n = some later)
    (hk : m.life? t k = some l) : m.shows t n k = m.storedBy t later.fetched k := by
  simp only [storedBy, hk, shows]
  rcases Nat.lt_or_ge n (k + 2) with hnear | hfar
  · have hlate := fetched_before h hk hn (Nat.le_of_lt_succ hnear)
    have h3 : ¬k + 3 ≤ n := by omega
    have h2 : ¬n = k + 2 := by omega
    simp [h3, h2, Nat.not_le.mpr hlate]
  · rcases Nat.lt_or_eq_of_le hfar with h3 | rfl
    · simp [Nat.succ_le_of_lt h3, fetched_third h hk hn h3]
    · obtain ⟨behind, hb⟩ := life_exists (k := k + 1) h (t := t) (Nat.lt_of_succ_lt (life_lt hn))
      have h3 : ¬k + 3 ≤ k + 2 := by omega
      rw [Bool.eq_iff_iff]
      simp only [h3, decide_false, Bool.false_or, beq_self_eq_true, Bool.true_and, givesWay, hk, hb,
        Bool.or_eq_true, decide_eq_true_eq]
      exact (fetched_second h hk hb hn).symm

theorem life_source (h : m.core.Empty) (hl : m.life? t n = some l) :
    l.slot = Slot.fetch (m.ticks l.fetched).ram l.slot.pc := by
  obtain ⟨v, -, hc, hf, -⟩ := record_get.mp (life_some.mp hl).1
  rw [hc]
  exact fetched_source h hf

theorem life_retired {c : Nat} {e : MemWb} (h : m.core.Empty)
    (he : (m.commits t)[n]? = some (c, e)) :
    ∃ l, m.life? t n = some l ∧ c = l.accessed + 1 ∧ e.Bears l.slot ∧ l.slot.trap = none := by
  obtain ⟨v, hv, rfl, hpick, hlen⟩ := record_get.mp he
  obtain ⟨u, x, rfl, hx, rfl, hlive, hnum⟩ := retired_accessed h hpick
  have ha : (m.accesses t)[n]? = some (u + 1, x) :=
    record_get.mpr ⟨u, Nat.lt_of_succ_lt hv, rfl, hx, hnum.symm.trans hlen⟩
  obtain ⟨l, hl⟩ := life_exists h (List.getElem?_eq_some_iff.mp ha).1
  obtain ⟨hcycle, hentry⟩ := Prod.mk.inj (Option.some.inj (ha.symm.trans (life_some.mp hl).2.2))
  obtain ⟨-, -, -, hbears⟩ := life_stages h hl
  have hb : (x.access (m.ticks u).ram).2.Bears l.slot :=
    (ExMem.access_bears (accessed_some hx).2.1 _).trans (hentry ▸ hbears)
  exact ⟨l, hl, by omega, hb, hb.trap (Slot.live_iff.mp hlive).2⟩

/-- In every run from four bubbles, whether or not it stores into its own code. -/
theorem fetch_order (m : Machine) (h : m.core.Empty) (t : Nat) : m.FetchOrder t where
  retired n c e he := by
    obtain ⟨l, hl, hc, hb, ht⟩ := life_retired h he
    obtain ⟨hi, -, ha, hentry⟩ := life_stages h hl
    exact ⟨l, hl, hi, ha, by omega, hentry, hb, ht⟩
  source n l hl := life_source h hl
  ram c hc := ram_storedBy h hc
  next k l later hk hn := fetched_before h hk hn (Nat.le_refl _)
  second k l behind later hk hb hn := fetched_second h hk hb hn
  third k n l later hle hk hn := fetched_third h hk hn hle
  word n c e he := by
    obtain ⟨l, hl, -, hb, ht⟩ := life_retired h he
    obtain ⟨v, hv, hc, -⟩ := record_get.mp (life_some.mp hl).1
    have hshown : m.ramWith t (m.shows t n) = (m.ticks l.fetched).ram := by
      rw [ram_storedBy h (by omega : l.fetched ≤ t)]
      refine ramWith_congr fun k hk => ?_
      obtain ⟨l', hl'⟩ := life_exists h hk
      exact shows_storedBy h hl hl'
    rw [hshown, hb.pc, hb.inst]
    exact Slot.fetch_word (life_source h hl) ht

/-- The second instruction behind the store is retired as it was, although
memory no longer holds it. -/
theorem fetch_order_patching : patching.core.Empty ∧
    (∃ e, (patching.commits 11)[4]? = some (10, e) ∧ e.pc = 0x1010 ∧ e.inst = 0x02a00513 ∧
      (patching.ramWith 11 (patching.shows 11 4)).fetch e.pc = .ok e.inst) ∧
    patching.shows 11 4 2 = false ∧ (patching.ticks 11).ram.peek 0x1010 = some 0x00100073 := by
  have h : patching.core.Empty := ⟨rfl, rfl, rfl, rfl⟩
  have he : (patching.commits 11)[4]? = some (10, (patching.ticks 9).core.memWb) := by
    decide +kernel
  exact ⟨h, ⟨_, he, by decide +kernel, by decide +kernel, (fetch_order _ h 11).word 4 10 _ he⟩,
    by decide +kernel, by decide +kernel⟩

end Machine

end FiveStage
