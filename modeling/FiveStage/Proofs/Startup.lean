import FiveStage.Machine.Boot
import FiveStage.Proofs.Image
import FiveStage.Proofs.Run
import FiveStage.Proofs.Validity

/-!
# The machine of a valid configuration

A valid configuration has the first byte of the first instruction in memory.
All of the instruction is there if memory ends late enough, and otherwise the
machine stops before it has done anything. A stack pointer that is not given is
the highest multiple of sixteen that memory reaches up to. It may lie below a
memory with no multiple of sixteen in it, and is then one that the
configuration could not have given.
-/

set_option autoImplicit false

namespace FiveStage

open FiveStage.Sequential FiveStage.Sequential.State

/-- A machine that cannot fetch its first instruction finds this out when the
instruction would retire. -/
theorem Machine.Idle.starved {m : Machine} {t : Trap} (hi : m.Idle)
    (hfetch : m.ram.fetch m.core.pc = .error t) :
    ∃ m', m.after? 4 = some m' ∧ m.retirements 4 = 0 ∧
      m'.tick.outcome = .error (.trap m.core.pc t) := by
  have hstep : m.sequential.step = .trapped m.core.pc t := by
    have h : m.sequential.ram.fetch m.sequential.pc = .error t := hfetch
    rw [step, h]
    rfl
  have hsettle : m.sequential.settle (m.sequential.fetches 0) = .trapped m.core.pc t := by
    rw [← hstep]
    exact settle_fetches rfl
  -- the program has no second instruction
  have honly : ∀ k s, course m.sequential.fetches m.sequential k = some s →
      k = 0 ∧ s = m.sequential := by
    intro k s hs
    cases k with
    | zero => exact ⟨rfl, (Option.some.inj hs).symm⟩
    | succ k =>
      obtain ⟨s₁, hs₁⟩ := course_le hs (Nat.succ_le_succ (Nat.zero_le k))
      obtain ⟨s₀, hs₀, hnext⟩ := course_pred hs₁
      obtain rfl : m.sequential = s₀ := Option.some.inj hs₀
      cases hsettle.symm.trans hnext
  have hsteady : Steady m.sequential.fetches m.sequential := by
    intro j k s s' hs hs' _ _
    obtain ⟨rfl, rfl⟩ := honly j s hs
    obtain ⟨rfl, rfl⟩ := honly k s' hs'
    rfl
  have hfirst : courseLeaves m.sequential.fetches m.sequential 0 = 2 := by
    simp [courseLeaves, leaves]
  obtain ⟨m', hafter, hretired, hvalid, hflight⟩ := hi.arrives hsteady (k := 0) rfl
  rw [hfirst] at hafter hretired
  exact ⟨m', hafter, hretired, (hflight.tick_traps hvalid rfl hsettle).1⟩

namespace Config

variable {c : Config}

theorem boot_ok (h : c.validate = .ok ()) : Machine.boot c = .ok (Machine.ofConfig c) := by
  rw [Machine.boot, h]

theorem ofConfig_idle (c : Config) (ram : Memory) :
    Machine.Idle ⟨(Machine.ofConfig c).core, ram⟩ :=
  ⟨rfl, rfl, rfl, rfl, rfl⟩

theorem contains_fits (h : c.validate = .ok ()) (a : Word) :
    c.contains a = true ↔ (Machine.ofConfig c).ram.fits a.toNat 1 = true := by
  obtain ⟨hsound, hwhole⟩ := validate_ok_iff.mp h
  have hend := (ramEnd?_isSome_of_not_whole hwhole hsound.memory).mpr hsound.addresses
  have hram := Memory.Holds.zeros c.ramBase c.ramSize.toNat
  rw [contains_iff hend]
  exact (hram.fits a.toNat 1).symm

theorem fetch_start (h : c.Sound) {M : ByteMap} {ram : Memory}
    (hram : ram.Holds c.ramBase.toNat c.ramSize.toNat M) :
    ram.fetch c.startPc = if c.startPc.toNat + 4 ≤ c.ramBound
      then .ok (.ofNat 32 (M.value c.startPc.toNat 4))
      else .error (.instructionAccessFault c.startPc) := by
  have hwithin : Within c.ramBase.toNat c.ramSize.toNat c.startPc.toNat 4 ↔
      c.startPc.toNat + 4 ≤ c.ramBound := and_iff_right h.start.1
  have hfetch := (hram.refines c.ramSize.isLt).fetch c.startPc
  rw [if_neg (not_not.mpr (Nat.mod_eq_zero_of_dvd h.aligned))] at hfetch
  simp only [hwithin] at hfetch
  exact hfetch

theorem value_zeros (a n : Nat) : ByteMap.value (fun _ => 0) a n = 0 := by
  simp [ByteMap.value]

/-- A memory that ends on a whole word has the whole of each word that begins in it. -/
theorem Sound.start_fits (h : c.Sound) (hend : 4 ∣ c.ramBound) :
    c.startPc.toNat + 4 ≤ c.ramBound := by
  have hstart := h.start.2
  have haligned := h.aligned
  omega

/-- The first word is fetched if the whole of it is in memory. Otherwise the
machine stops in its fifth cycle, with nothing retired, whatever has been put
into its memory. -/
theorem start_fetched (c : Config) (h : c.validate = .ok ()) :
    let m := Machine.ofConfig c
    Machine.boot c = .ok m ∧
      (∀ a, c.contains a = true ↔ m.ram.fits a.toNat 1 = true) ∧
      (m.ram.fetch m.core.pc = if c.startPc.toNat + 4 ≤ c.ramBound then .ok 0
        else .error (.instructionAccessFault c.startPc)) ∧
      (4 ∣ c.ramBound → m.ram.fetch m.core.pc = .ok 0) ∧
      (c.ramBound < c.startPc.toNat + 4 → ∀ ram : Memory, ram.base = c.ramBase →
        ram.size = c.ramSize.toNat →
          ∃ m', Machine.after? ⟨m.core, ram⟩ 4 = some m' ∧
            Machine.retirements ⟨m.core, ram⟩ 4 = 0 ∧
            m'.tick.outcome =
              .error (.trap c.startPc (.instructionAccessFault c.startPc))) := by
  obtain ⟨hsound, -⟩ := validate_ok_iff.mp h
  intro m
  have hfetch := fetch_start hsound (Memory.Holds.zeros c.ramBase c.ramSize.toNat)
  rw [value_zeros] at hfetch
  refine ⟨boot_ok h, contains_fits h, hfetch, fun hend => ?_, fun hcut ram hbase hsize => ?_⟩
  · exact hfetch.trans (if_pos (hsound.start_fits hend))
  · have hram : ram.Holds c.ramBase.toNat c.ramSize.toNat ram.byte := by
      rw [← hbase, ← hsize]
      exact ram.holds_byte
    have hfault := fetch_start hsound hram
    rw [if_neg (by omega)] at hfault
    exact (ofConfig_idle c ram).starved hfault

def truncated : Config :=
  { startPc := 0x1004
    ramBase := 0x1000
    ramSize := 6 }

theorem start_fetched_truncated : truncated.validate = .ok () ∧
    ∃ m, (Machine.ofConfig truncated).after? 4 = some m ∧
      m.tick.outcome = .error (.trap 0x1004 (.instructionAccessFault 0x1004)) := by
  have hvalid : truncated.validate = .ok () := rfl
  obtain ⟨-, -, -, -, hcut⟩ := start_fetched truncated hvalid
  obtain ⟨m, hafter, -, hstop⟩ := hcut (by decide) (Memory.zeros 0x1000 6) rfl rfl
  exact ⟨hvalid, m, hafter, hstop⟩

theorem truncated_start_unfetched :
    ¬∀ c : Config, c.validate = .ok () →
      ∃ w, (Machine.ofConfig c).ram.fetch (Machine.ofConfig c).core.pc = .ok w := by
  intro hall
  obtain ⟨w, hw⟩ := hall truncated rfl
  have hfault : (Machine.ofConfig truncated).ram.fetch (Machine.ofConfig truncated).core.pc =
      .error (.instructionAccessFault 0x1004) := rfl
  cases hfault.symm.trans hw

theorem and_not_fifteen (v : Word) : (v &&& ~~~(15 : Word)).toNat = v.toNat / 16 * 16 := by
  have hmask : ~~~(15 : Word) = BitVec.allOnes 32 <<< 4 := by decide
  have hlt := v.isLt
  rw [hmask, ← BitVec.shiftLeft_ushiftRight, BitVec.toNat_shiftLeft, BitVec.toNat_ushiftRight,
    Nat.shiftLeft_eq, Nat.shiftRight_eq_div_pow]
  omega

theorem stackPointer_given {sp : Word} (h : c.initialSp = some sp) : c.stackPointer = sp := by
  rw [stackPointer, h]

theorem stackPointer_derived (h : c.ramBound ≤ 2 ^ 32) (hnone : c.initialSp = none) :
    c.stackPointer.toNat = min c.ramBound 0xFFFFFFFF / 16 * 16 := by
  rw [stackPointer, hnone, ramTop_toNat h]
  simp only [and_not_fifteen, BitVec.toNat_ofNat]
  omega

/-- The derived stack pointer is the highest multiple of sixteen that memory
reaches up to. -/
theorem le_stackPointer (h : c.ramBound ≤ 2 ^ 32) (hnone : c.initialSp = none) {a : Word}
    (haligned : 16 ∣ a.toNat) (ha : a.toNat ≤ c.ramBound) : a.toNat ≤ c.stackPointer.toNat := by
  have hlt := a.isLt
  rw [stackPointer_derived h hnone]
  omega

theorem stackPointer_le (h : c.Sound) : c.stackPointer.toNat ≤ c.ramBound := by
  cases hsp : c.initialSp with
  | some sp =>
    rw [stackPointer_given hsp]
    exact (h.stack sp hsp).2
  | none =>
    rw [stackPointer_derived h.addresses hsp]
    omega

theorem stackPointer_placed_iff (h : c.Sound) : c.ramBase.toNat ≤ c.stackPointer.toNat ↔
    c.initialSp.isSome = true ∨
      ∃ a : Word, 16 ∣ a.toNat ∧ c.ramBase.toNat ≤ a.toNat ∧ a.toNat ≤ c.ramBound := by
  cases hsp : c.initialSp with
  | some sp =>
    rw [stackPointer_given hsp]
    exact iff_of_true (h.stack sp hsp).1 (.inl rfl)
  | none =>
    constructor
    · intro hbase
      refine .inr ⟨c.stackPointer, ?_, hbase, stackPointer_le h⟩
      rw [stackPointer_derived h.addresses hsp]
      exact Nat.dvd_mul_left _ _
    · rintro (hsome | ⟨a, haligned, hlow, hhigh⟩)
      · cases hsome
      · exact hlow.trans (le_stackPointer h.addresses hsp haligned hhigh)

theorem stackPointer_roomy (h : c.Sound) (hroomy : 16 ∣ c.ramBase.toNat ∨ 16 ≤ c.ramSize.toNat) :
    c.ramBase.toNat ≤ c.stackPointer.toNat := by
  cases hsp : c.initialSp with
  | some sp =>
    rw [stackPointer_given hsp]
    exact (h.stack sp hsp).1
  | none =>
    have hbase := c.ramBase.isLt
    have hbound := h.addresses
    rw [stackPointer_derived hbound hsp]
    unfold ramBound at hbound ⊢
    omega

def withStack (c : Config) : Config :=
  { c with initialSp := some c.stackPointer }

theorem ofConfig_withStack (c : Config) : Machine.ofConfig c.withStack = Machine.ofConfig c := rfl

theorem withStack_breaks {v : Violation} (h : v.rank < 4) :
    c.withStack.Breaks v ↔ c.Breaks v := by
  cases v with
  | emptyRam | ramTooLarge | misalignedStart | startOutside => exact Iff.rfl
  | stackOutside | noCycles => simp [Violation.rank] at h

theorem withStack_validate (h : c.validate = .ok ()) : c.withStack.validate =
    if c.ramBase.toNat ≤ c.stackPointer.toNat then .ok ()
    else .error (.stackOutside c.stackPointer) := by
  obtain ⟨hsound, hwhole⟩ := validate_ok_iff.mp h
  have hhigh := stackPointer_le hsound
  by_cases hlow : c.ramBase.toNat ≤ c.stackPointer.toNat
  · rw [if_pos hlow]
    have hstack : ∀ sp, c.withStack.initialSp = some sp →
        c.ramBase.toNat ≤ sp.toNat ∧ sp.toNat ≤ c.ramBound := by
      intro sp hsp
      obtain rfl : c.stackPointer = sp := Option.some.inj hsp
      exact ⟨hlow, hhigh⟩
    exact validate_ok_iff.mpr ⟨{ hsound with stack := hstack }, hwhole⟩
  · rw [if_neg hlow]
    have hbreaks : c.withStack.Breaks (.stackOutside c.stackPointer) :=
      ⟨rfl, fun hkeeps => hlow hkeeps.1⟩
    refine (validate_error_iff (c := c.withStack) hwhole).mpr ⟨hbreaks, ?_⟩
    intro v hrank hbroken
    obtain ⟨hshows, hnot⟩ := (withStack_breaks hrank).mp hbroken
    exact hnot (sound_iff.mp hsound v hshows)

/-- The stack pointer is never above memory, and not below it if one was given
or there is a multiple of sixteen to derive it from. Where it is below, the
configuration may leave it to be derived and may not give it; the machine would
be the same. -/
theorem stackPointer_place (c : Config) (h : c.validate = .ok ()) :
    c.stackPointer.toNat ≤ c.ramBound ∧
      (c.ramBase.toNat ≤ c.stackPointer.toNat ↔ c.initialSp.isSome = true ∨
        ∃ a : Word, 16 ∣ a.toNat ∧ c.ramBase.toNat ≤ a.toNat ∧ a.toNat ≤ c.ramBound) ∧
      (16 ∣ c.ramBase.toNat ∨ 16 ≤ c.ramSize.toNat → c.ramBase.toNat ≤ c.stackPointer.toNat) ∧
      (c.withStack.validate = if c.ramBase.toNat ≤ c.stackPointer.toNat then .ok ()
        else .error (.stackOutside c.stackPointer)) ∧
      Machine.ofConfig c.withStack = Machine.ofConfig c := by
  obtain ⟨hsound, -⟩ := validate_ok_iff.mp h
  exact ⟨stackPointer_le hsound, stackPointer_placed_iff hsound, stackPointer_roomy hsound,
    withStack_validate h, ofConfig_withStack c⟩

def narrow : Config :=
  { startPc := 4
    ramBase := 4
    ramSize := 8 }

def roomy : Config :=
  { narrow with ramSize := 16 }

theorem stackPointer_place_roomy : roomy.validate = .ok () ∧
    4 ≤ roomy.stackPointer.toNat ∧ roomy.withStack.validate = .ok () := by
  have hvalid : roomy.validate = .ok () := rfl
  obtain ⟨-, -, hroomy, hgiven, -⟩ := stackPointer_place roomy hvalid
  have hlow : roomy.ramBase.toNat ≤ roomy.stackPointer.toNat := hroomy (.inr (by decide))
  rw [if_pos hlow] at hgiven
  exact ⟨hvalid, hlow, hgiven⟩

/-- The derived stack pointer is zero, and zero may not be given. -/
theorem narrow_stackPointer_outside :
    (narrow.validate = .ok () ∧ narrow.stackPointer = 0 ∧
      narrow.withStack.validate = .error (.stackOutside 0)) ∧
    ¬∀ c : Config, c.validate = .ok () → c.ramBase.toNat ≤ c.stackPointer.toNat ∧
      c.stackPointer.toNat ≤ c.ramBound := by
  refine ⟨⟨rfl, by decide, by decide⟩, fun hall => ?_⟩
  obtain ⟨hlow, -⟩ := hall narrow rfl
  exact absurd hlow (by decide)

end Config

end FiveStage
