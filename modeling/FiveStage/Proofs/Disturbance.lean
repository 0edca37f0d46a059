import FiveStage.Proofs.Run

/-!
# Stores and the words that are fetched

When the pipeline fetches an instruction, the two before it may not have
stored yet. It still fetches what the machine without a pipeline fetches, if no
store overlaps the word of either of the next two instructions.
-/

set_option autoImplicit false

namespace FiveStage

namespace Memory

theorem read_write_frame (m : Memory) (a : Nat) (bs : List Byte) (x n : Nat)
    (h : a + bs.length ≤ x ∨ x + n ≤ a) : (m.write a bs).read x n = m.read x n := by
  refine List.map_congr_left fun i hi => ?_
  rw [List.mem_range] at hi
  rw [byte, byte?_write_frame _ _ _ _ (by omega), byte]

theorem fits_write (m : Memory) (a : Nat) (bs : List Byte) (x n : Nat) :
    (m.write a bs).fits x n = m.fits x n := by
  simp [fits]

theorem fetch_write (m : Memory) (a : Nat) (bs : List Byte) (pc : Word)
    (h : ∀ w, (m.write a bs).fetch pc = .ok w →
      a + bs.length ≤ pc.toNat ∨ pc.toNat + 4 ≤ a) :
    (m.write a bs).fetch pc = m.fetch pc := by
  have hread : (m.write a bs).read? pc.toNat 4 = m.read? pc.toNat 4 ∨
      ∃ t, (m.write a bs).fetch pc = .error t := by
    cases hf : (m.write a bs).fetch pc with
    | error t => exact .inr ⟨t, rfl⟩
    | ok w =>
      left
      rw [read?, read?, fits_write, read_write_frame _ _ _ _ _ (h w hf)]
  rcases hread with hread | ⟨t, hf⟩
  · unfold fetch peek number?
    rw [hread]
  · rw [hf]
    unfold fetch peek number? read? at hf ⊢
    rw [fits_write] at hf
    split at hf <;> rename_i hmis
    · rw [if_pos hmis, ← hf]
    · rw [if_neg hmis]
      cases hfit : m.fits pc.toNat 4 with
      | true => simp [hfit] at hf
      | false =>
        rw [hfit] at hf
        exact hf.symm

theorem access_written (m : Memory) (c : Control) (a v : Word) :
    (m.access c a v).1 = m ∨
      c.memWrite = true ∧ (m.access c a v).1 = m.write a.toNat (Word.bytes v c.width.size) := by
  unfold access store
  cases c.memRead with
  | true => exact .inl rfl
  | false =>
    cases c.memWrite with
    | false => exact .inl rfl
    | true =>
      cases m.storeTrap? a c.width with
      | some t => exact .inl rfl
      | none => exact .inr ⟨rfl, rfl⟩

end Memory

namespace Sequential.State

/-- The address and the length of the store that the next instruction makes. -/
def stored? (s : State) : Option (Nat × Nat) :=
  match s.ram.fetch s.pc with
  | .error _ => none
  | .ok w =>
    let d := decode w
    match d.control? with
    | none => none
    | some c =>
      if c.memWrite then
        some ((c.result s.pc d.imm (s.regs.read d.rs1) (s.regs.read d.rs2)).toNat, c.width.size)
      else none

def spares (s later : State) : Bool :=
  match s.stored?, later.ram.fetch later.pc with
  | some (a, n), .ok _ => a + n ≤ later.pc.toNat || later.pc.toNat + 4 ≤ a
  | _, _ => true

/-- No store overlaps the word of either of the next two instructions. -/
def Undisturbed (s₀ : State) : Prop :=
  ∀ n s s₁, s₀.after? n = some s → s.step = .next s₁ →
    s.spares s₁ = true ∧ ∀ s₂, s₁.step = .next s₂ → s.spares s₂ = true

/-- Whether a program ends within `n` instructions and no store gets in the way. -/
def sparing : Nat → State → Bool
  | 0, _ => false
  | n + 1, s =>
    match s.step with
    | .next s₁ =>
      s.spares s₁ && sparing n s₁ &&
        match s₁.step with
        | .next s₂ => s.spares s₂
        | _ => true
    | _ => true

theorem sparing_undisturbed {n : Nat} {s₀ : State} (h : sparing n s₀ = true) :
    s₀.Undisturbed := by
  induction n generalizing s₀ with
  | zero => exact absurd h (by simp [sparing])
  | succ n ih =>
    intro k s s₁ hs hstep
    rw [sparing] at h
    cases k with
    | zero =>
      obtain rfl : s₀ = s := Option.some.inj hs
      simp only [hstep, Bool.and_eq_true] at h
      refine ⟨h.1.1, fun s₂ hs₂ => ?_⟩
      simpa only [hs₂] using h.2
    | succ k =>
      rw [after?] at hs
      cases hx : s₀.step with
      | halted code => simp [hx] at hs
      | trapped pc cause => simp [hx] at hs
      | next s' =>
        simp only [hx, Bool.and_eq_true] at hs h
        exact ih h.1.2 k s s₁ hs hstep

theorem step_ram {s s' : State} (h : s.step = .next s') :
    s'.ram = s.ram ∨ ∃ a bs, s.stored? = some (a, bs.length) ∧ s'.ram = s.ram.write a bs := by
  unfold step at h
  cases hf : s.ram.fetch s.pc with
  | error t => simp [hf] at h
  | ok w =>
    simp only [hf] at h
    cases hc : (decode w).control? with
    | none => simp [Instruction.control, hc] at h
    | some c =>
      simp only [Instruction.control, hc] at h
      split at h
      · cases h
      · simp only [perform] at h
        split at h
        · cases h
        · rename_i ram loaded hacc
          obtain rfl := Outcome.next.inj h
          have hram := congrArg Prod.fst hacc
          rcases s.ram.access_written c (c.result s.pc (decode w).imm
            (s.regs.read (decode w).rs1) (s.regs.read (decode w).rs2))
            (s.regs.read (decode w).rs2) with hsame | ⟨hw, hwritten⟩
          · exact .inl (hram.symm.trans hsame)
          · refine .inr ⟨_, _, ?_, hram.symm.trans hwritten⟩
            simp [stored?, hf, hc, hw]

theorem fetch_before {s s' later : State} (hstep : s.step = .next s')
    (hspare : s.spares later = true)
    (hfetch : s'.ram.fetch later.pc = later.ram.fetch later.pc) :
    s.ram.fetch later.pc = later.ram.fetch later.pc := by
  rcases step_ram hstep with hram | ⟨a, bs, hst, hram⟩
  · rwa [← hram]
  · rw [← hfetch, hram]
    refine (Memory.fetch_write _ _ _ _ fun w hw => ?_).symm
    rw [← hram, hfetch] at hw
    simpa [spares, hst, hw] using hspare

/-- If no store gets in the way, the pipeline fetches the program. -/
theorem Undisturbed.steady {s₀ : State} (h : s₀.Undisturbed) : Steady s₀.fetches s₀ := by
  intro j k s s' hs hs' hjk hkj
  rw [course_fetches] at hs hs'
  have hfetch : s.ram.fetch s'.pc = s'.ram.fetch s'.pc := by
    obtain rfl | rfl | rfl : k = j ∨ k = j + 1 ∨ k = j + 1 + 1 := by omega
    · obtain rfl : s = s' := Option.some.inj (hs.symm.trans hs')
      rfl
    · obtain ⟨t, ht, hstep⟩ := after_pred hs'
      obtain rfl : s = t := Option.some.inj (hs.symm.trans ht)
      exact fetch_before hstep (h j s s' hs hstep).1 rfl
    · obtain ⟨s₁, hs₁, hstep₁⟩ := after_pred hs'
      obtain ⟨t, ht, hstep⟩ := after_pred hs₁
      obtain rfl : s = t := Option.some.inj (hs.symm.trans ht)
      have h₁ := fetch_before hstep₁ (h (j + 1) s₁ s' hs₁ hstep₁).1 rfl
      exact fetch_before hstep ((h j s s₁ hs hstep).2 s' hstep₁) h₁
  rw [fetches_eq hs', Slot.fetch, Slot.fetch, hfetch]

end Sequential.State

/-- A program that stores a number, loads it again and branches on it, over a
word that is no instruction. -/
def Machine.storing : Machine :=
  { core := { regs := Registers.initial, pc := 0x1000 }
    ram := (Memory.zeros 0x1000 32).write 0x1000 (Word.image
      [0x00000317, 0x02a00293, 0x00532e23, 0x01c32503, 0x00550463, 0x00000000, 0x00100073]) }

theorem Machine.storing_idle : storing.Idle := ⟨rfl, rfl, rfl, rfl, rfl⟩

theorem Machine.storing_undisturbed : storing.sequential.Undisturbed :=
  Sequential.State.sparing_undisturbed (by decide +kernel : Sequential.State.sparing 6 _ = true)

end FiveStage
