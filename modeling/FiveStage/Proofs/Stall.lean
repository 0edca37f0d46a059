import FiveStage.Proofs.Operand

/-!
# Why an instruction is held back

The hazard unit sees snapshots, the multiplexers see latches. The unit stalls
exactly when the instruction in decode reads a register whose youngest producer
the multiplexers would miss; in every other cycle all operands arrive, even if
the latches hold arbitrary entries.
-/

set_option autoImplicit false

namespace FiveStage

namespace Snapshot

theorem ofIdEx_names (e : IdEx) {r : Nat} (hr : r ≠ 0) :
    (ofIdEx e).rd = r ↔ e.live = true ∧ e.ctrl.regWrite = true ∧ e.rd = r := by
  unfold ofIdEx
  cases e.live with
  | false => simp [bubble, hr.symm]
  | true => cases e.ctrl.regWrite <;> simp [hr.symm]

theorem ofExMem_names (e : ExMem) {r : Nat} (hr : r ≠ 0) :
    (ofExMem e).rd = r ↔ e.live = true ∧ e.ctrl.regWrite = true ∧ e.rd = r := by
  unfold ofExMem
  cases e.live with
  | false => simp [bubble, hr.symm]
  | true => cases e.ctrl.regWrite <;> simp [hr.symm]

theorem ofIdEx_rd (e : IdEx) {r : Reg} (hr : r ≠ 0) :
    (ofIdEx e).rd = r.toNat ↔ e.produces r = true := by
  rw [ofIdEx_names e (Reg.toNat_ne_zero hr), IdEx.produces, Bool.and_eq_true, Bool.and_eq_true,
    beq_iff_eq, and_assoc]

theorem ofExMem_rd (e : ExMem) {r : Reg} (hr : r ≠ 0) :
    (ofExMem e).rd = r.toNat ↔ e.produces r = true := by
  rw [ofExMem_names e (Reg.toNat_ne_zero hr), ExMem.produces, Bool.and_eq_true, Bool.and_eq_true,
    beq_iff_eq, and_assoc]

theorem ofIdEx_memRead {e : IdEx} {r : Reg} (h : e.produces r = true) :
    (ofIdEx e).memRead = e.ctrl.memRead := by
  simp [ofIdEx, IdEx.live_of_produces h]

theorem ofExMem_memRead {e : ExMem} {r : Reg} (h : e.produces r = true) :
    (ofExMem e).memRead = e.ctrl.memRead := by
  simp [ofExMem, ExMem.live_of_produces h]

end Snapshot

namespace Hazard

theorem reads_iff (h : Hazard) {a b : Reg} (ha : h.rs1 = a.toNat) (hb : h.rs2 = b.toNat) (n : Nat) :
    h.reads n = true ↔ ∃ r : Reg, r ≠ 0 ∧ (a = r ∨ b = r) ∧ n = r.toNat := by
  simp only [reads, ha, hb, Bool.and_eq_true, bne_iff_ne, Bool.or_eq_true, beq_iff_eq]
  constructor
  · rintro ⟨hn, rfl | rfl⟩
    · exact ⟨a, fun h => hn (by simp [h]), .inl rfl, rfl⟩
    · exact ⟨b, fun h => hn (by simp [h]), .inr rfl, rfl⟩
  · rintro ⟨r, hr, hab, rfl⟩
    refine ⟨Reg.toNat_ne_zero hr, ?_⟩
    rcases hab with rfl | rfl
    · exact .inl rfl
    · exact .inr rfl

theorem decision_stall_iff (h : Hazard) :
    h.decision = .stall ↔ h.exDependency = true ∨ h.memDependency = true := by
  unfold decision
  rw [← Bool.or_eq_true]
  split
  · simp_all
  · split <;> simp_all

end Hazard

namespace Core

theorem decoded_legal {c : Core} {ctrl : Control} (hl : c.ifId.live = true)
    (hc : (decode c.ifId.inst).control? = some ctrl) :
    c.decoded = Issue.ofLegal c.ifId.pc c.ifId.inst (decode c.ifId.inst) ctrl
      (c.decodeOperand (decode c.ifId.inst).rs1) (c.decodeOperand (decode c.ifId.inst).rs2) :=
  Issue.ofSlot_legal _ _ _ hl hc

theorem decided_stall_iff {c : Core} {d : Instruction} {ctrl : Control}
    (hs : c.decoded.snapshot = Snapshot.ofInstruction d ctrl) :
    c.decided = .stall ↔
      ∃ r : Reg, r ≠ 0 ∧ (d.rs1 = r ∨ d.rs2 = r) ∧ c.awaits ctrl.isTransfer r = true := by
  have h1 : (c.hazard c.decoded).rs1 = d.rs1.toNat := congrArg Snapshot.rs1 hs
  have h2 : (c.hazard c.decoded).rs2 = d.rs2.toNat := congrArg Snapshot.rs2 hs
  have ht : (c.hazard c.decoded).transfer = ctrl.isTransfer := congrArg Snapshot.transfer hs
  rw [decided, Hazard.decision_stall_iff, Hazard.exDependency, Hazard.memDependency, ht]
  simp only [Bool.and_eq_true, Hazard.reads_iff _ h1 h2]
  constructor
  · rintro (⟨hw, r, hr, hread, hrd⟩ | ⟨⟨ht, hm⟩, r, hr, hread, hrd⟩)
    · have hp := (Snapshot.ofIdEx_rd c.idEx hr).mp hrd
      refine ⟨r, hr, hread, ?_⟩
      rw [awaits, if_pos hp, ← Snapshot.ofIdEx_memRead hp]
      exact hw
    · have hp := (Snapshot.ofExMem_rd c.exMem hr).mp hrd
      refine ⟨r, hr, hread, ?_⟩
      rw [awaits, ht, hp, ← Snapshot.ofExMem_memRead hp]
      split
      · rfl
      · exact Bool.and_eq_true_iff.mpr ⟨hm, rfl⟩
  · rintro ⟨r, hr, hread, hw⟩
    unfold awaits at hw
    split at hw
    · rename_i hp
      rw [← Snapshot.ofIdEx_memRead hp] at hw
      exact .inl ⟨hw, r, hr, hread, (Snapshot.ofIdEx_rd c.idEx hr).mpr hp⟩
    · simp only [Bool.and_eq_true] at hw
      obtain ⟨⟨hp, hm⟩, ht⟩ := hw
      rw [← Snapshot.ofExMem_memRead hp] at hm
      exact .inr ⟨⟨ht, hm⟩, r, hr, hread, (Snapshot.ofExMem_rd c.exMem hr).mpr hp⟩

end Core

/-- Whether the multiplexer in front of an instruction's operand, in decode or
one cycle later in execute, selects the entry of the youngest producer that is
still in flight. -/
def Machine.selectsProducer (m : Machine) (inDecode : Bool) (r : Reg) : Bool :=
  let later := Source.forExecute r.toNat m.core.executed (m.core.exMem.access m.ram).2
  if m.core.idEx.produces r then !inDecode && later == .exMem
  else if m.core.exMem.produces r then
    if inDecode then Source.forDecode r.toNat m.core.exMem == .exMem else later == .memWb
  else true

theorem selects_not_awaited (m : Machine) (inDecode : Bool) {r : Reg} (hr : r ≠ 0)
    (hw : m.core.awaits inDecode r = true) : m.selectsProducer inDecode r = false := by
  unfold Core.awaits at hw
  unfold Machine.selectsProducer
  cases hex : m.core.idEx.produces r with
  | true =>
    simp only [hex, if_true, Bool.or_eq_true] at hw ⊢
    rcases hw with rfl | hl
    · rfl
    · have hf : m.core.executed.forwardsTo r.toNat = false := by
        simp [m.core.executed_forwards hr, hl]
      simp only [Source.forExecute, hf, Bool.false_eq_true, if_false, Bool.and_eq_false_iff]
      right
      split <;> rfl
  | false =>
    simp only [hex, Bool.false_eq_true, if_false, Bool.and_eq_true] at hw ⊢
    obtain ⟨⟨hp, hl⟩, rfl⟩ := hw
    have hf : m.core.exMem.forwardsTo r.toNat = false := by
      simp [ExMem.forwards_iff _ hr, hl]
    simp [hp, Source.forDecode, hf]

/-- A running machine with a legal instruction in decode, arbitrary entries in
the latches ahead of it, and nothing that ends the program in the last one. If
the instruction is not held back, both multiplexers give it the value of the
youngest producer, and it is held back only for a value that they would miss. -/
theorem forwarding_delivers (m : Machine) (ctrl : Control)
    (hrun : m.core.exitCode = none) (htrap : m.core.memWb.hasTrap = false)
    (hhalt : m.core.memWb.valid = true → m.core.memWb.ctrl.halt = false)
    (hrd : m.core.memWb.rd < 32) (hlive : m.core.ifId.live = true)
    (hlegal : (decode m.core.ifId.inst).control? = some ctrl) :
    let d := decode m.core.ifId.inst
    let after := m.tick.machine.core
    m.tick.outcome = .ok () ∧
    m.core.decoded = Issue.ofLegal m.core.ifId.pc m.core.ifId.inst d ctrl
      (m.core.decodeOperand d.rs1) (m.core.decodeOperand d.rs2) ∧
    (∀ r : Reg, r ≠ 0 → d.rs1 = r ∨ d.rs2 = r → after.lastDecision ≠ .stall →
      (m.core.idEx.produces r = false → m.core.exMem.produces r = true →
        (m.core.exMem.access m.ram).2.trap = none) →
      (d.usesInDecode = true → m.core.decodeOperand r = m.architectural r) ∧
      (d.rs1 = r → after.idEx.rs1 = r.toNat ∧
        IdEx.operand after.exMem after.memWb after.idEx.rs1 after.idEx.rv1 = m.architectural r) ∧
      (d.rs2 = r → after.idEx.rs2 = r.toNat ∧
        IdEx.operand after.exMem after.memWb after.idEx.rs2 after.idEx.rv2 =
          m.architectural r)) ∧
    (after.lastDecision = .stall ↔
      ∃ r : Reg, r ≠ 0 ∧ (d.rs1 = r ∨ d.rs2 = r) ∧ m.core.awaits d.usesInDecode r = true) ∧
    (∀ r : Reg, r ≠ 0 → m.core.awaits d.usesInDecode r = true →
      m.selectsProducer d.usesInDecode r = false) := by
  intro d after
  have hp : m.core.memWb.Passes := fun hv =>
    ⟨by simpa [Slot.hasTrap, hv] using htrap, hhalt hv, fun _ => hrd⟩
  have htick := Machine.tick_passing hrun hp
  have hok : m.tick.outcome = .ok () := by rw [htick]
  have hafter : after = m.core.next m.ram := congrArg (·.machine.core) htick
  have hdec := Core.decoded_legal hlive hlegal
  have hs : m.core.decoded.snapshot = Snapshot.ofInstruction d ctrl := by rw [hdec]; rfl
  have hstall : after.lastDecision = .stall ↔
      ∃ r : Reg, r ≠ 0 ∧ (d.rs1 = r ∨ d.rs2 = r) ∧ m.core.awaits d.usesInDecode r = true := by
    rw [hafter]
    refine (Core.decided_stall_iff hs).trans (exists_congr fun r => and_congr_right fun hr =>
      and_congr_right fun hread => ?_)
    rw [Instruction.control_transfer hlegal hr hread]
  refine ⟨hok, hdec, ?_, hstall, fun r hr hw => selects_not_awaited m _ hr hw⟩
  intro r hr hread hgo hfault
  have hw : m.core.awaits d.usesInDecode r = false :=
    Bool.eq_false_iff.mpr fun hw => hgo (hstall.mpr ⟨r, hr, hread, hw⟩)
  have hlate := Core.awaits_late hw
  have hentry : after.idEx = m.core.decoded.entry := by
    have hne : m.core.decided ≠ .stall := by rwa [hafter] at hgo
    rw [hafter]
    exact if_neg hne
  have hval := m.execute_architectural hp hr hlate hfault
  have hmem : after.exMem = m.core.executed ∧ after.memWb = (m.core.exMem.access m.ram).2 := by
    rw [hafter]
    exact ⟨rfl, rfl⟩
  refine ⟨fun hu => m.decode_architectural hp hr (by rwa [hu] at hw), ?_, ?_⟩
  · rintro rfl
    rw [hmem.1, hmem.2, hentry, hdec]
    exact ⟨rfl, hval⟩
  · rintro rfl
    rw [hmem.1, hmem.2, hentry, hdec]
    exact ⟨rfl, hval⟩

/-- A branch on `x5` behind two instructions that both write it. -/
def Machine.contested : Machine :=
  { core :=
      { regs := Registers.initial
        pc := 0x100c
        ifId := { valid := true, pc := 0x1008, inst := 0x00628463 }
        exMem := { valid := true, pc := 0x1004, rd := 5, alu := 7, ctrl := { regWrite := true } }
        memWb := { valid := true, pc := 0x1000, rd := 5, alu := 9, ctrl := { regWrite := true } } }
    ram := Memory.zeros 0x1000 16 }

theorem forwarding_delivers_contested :
    Machine.contested.core.exitCode = none ∧ Machine.contested.core.memWb.hasTrap = false ∧
      (Machine.contested.core.memWb.valid = true →
        Machine.contested.core.memWb.ctrl.halt = false) ∧
      Machine.contested.core.memWb.rd < 32 ∧ Machine.contested.core.ifId.live = true ∧
      (decode Machine.contested.core.ifId.inst).control? =
        some { branch := true, b := .reg2 } ∧
      Machine.contested.core.decodeOperand 5 = 7 := by
  have hc : (decode Machine.contested.core.ifId.inst).control? =
      some { branch := true, b := .reg2 } := by decide
  obtain ⟨-, -, hdeliver, -⟩ :=
    forwarding_delivers Machine.contested _ rfl rfl (fun _ => rfl) (by decide) rfl hc
  obtain ⟨hearly, -⟩ :=
    hdeliver 5 (by decide) (.inl (by decide)) (by decide +kernel) (fun _ _ => by decide)
  exact ⟨rfl, rfl, fun _ => rfl, by decide, rfl, hc, hearly (by decide)⟩

end FiveStage
