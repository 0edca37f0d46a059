import Mathlib.Data.List.Basic
import FiveStage.Isa.Assembly

/-!
# Lines of assembly and their text

A line consists of parts with blanks between them: its mnemonic and its
operands. No operand has a blank in it, so that the parts are found again in the
text, and each operand is known from its part.
-/

set_option autoImplicit false

namespace FiveStage

@[simp] theorem Reg.name_inj {r s : Reg} : r.name = s.name ↔ r = s := by
  refine ⟨fun h => ?_, congrArg Reg.name⟩
  revert r s
  decide +kernel

theorem Reg.isAlphanum_of_mem_name {r : Reg} {c : Char} (h : c ∈ r.name.toList) :
    c.isAlphanum = true := by
  have hall : ∀ r : Reg, r.name.toList.all Char.isAlphanum = true := by decide +kernel
  exact List.all_eq_true.mp (hall r) c h

namespace Text

def displacement (n : Int) (base : Reg) : String :=
  integer n ++ "(" ++ base.name ++ ")"

theorem toList_displacement (n : Int) (base : Reg) :
    (displacement n base).toList = (integer n).toList ++ '(' :: (base.name.toList ++ [')']) := by
  simp [displacement]

theorem notMem_integer {c : Char} (hc : ¬(c = '-' ∨ c.isDigit = true)) (n : Int) :
    c ∉ (integer n).toList :=
  fun h => hc (mem_integer h)

theorem isAlphanum_of_mem_zero_x {c : Char} (h : c ∈ "0x".toList) : c.isAlphanum = true := by
  have hall : "0x".toList.all Char.isAlphanum = true := by decide
  exact List.all_eq_true.mp hall c h

theorem mem_hex {n : Nat} {c : Char} (h : c ∈ (hex n).toList) : c.isAlphanum = true := by
  simp only [hex, String.toList_append, String.toList_ofList, List.mem_append] at h
  rcases h with hstart | hdigit
  · exact isAlphanum_of_mem_zero_x hstart
  · exact isAlphanum_of_mem_sixteen hdigit

theorem mem_hex8 {n : Nat} {c : Char} (h : c ∈ (hex8 n).toList) : c.isAlphanum = true := by
  simp only [hex8, String.toList_append, String.toList_ofList, List.leftpad,
    List.mem_append] at h
  rcases h with hstart | hzero | hdigit
  · exact isAlphanum_of_mem_zero_x hstart
  · rw [(List.mem_replicate.mp hzero).2]
    rfl
  · exact isAlphanum_of_mem_sixteen hdigit

@[simp] theorem displacement_inj {m n : Int} {r s : Reg} :
    displacement m r = displacement n s ↔ m = n ∧ r = s := by
  constructor
  · intro h
    rw [← String.toList_inj, toList_displacement, toList_displacement] at h
    have hbefore : '(' ∉ (integer m).toList := notMem_integer (by decide) m
    have hbehind : '(' ∉ r.name.toList ++ [')'] := by
      rw [List.mem_append, List.mem_singleton]
      rintro (hname | hclose)
      · exact absurd (Reg.isAlphanum_of_mem_name hname) (by decide)
      · exact absurd hclose (by decide)
    obtain ⟨hnumber, -, hbase⟩ := (List.append_cons_inj_of_notMem hbefore hbehind).mp h
    have hname := List.append_cancel_right hbase
    exact ⟨integer_inj.mp (String.toList_inj.mp hnumber),
      Reg.name_inj.mp (String.toList_inj.mp hname)⟩
  · rintro ⟨rfl, rfl⟩
    rfl

theorem name_ne_integer (r : Reg) (n : Int) : r.name ≠ integer n := by
  intro h
  have hall : ∀ r : Reg, r.name.toList.any (fun c => c != '-' && !c.isDigit) = true := by
    decide +kernel
  obtain ⟨c, hc, hletter⟩ := List.any_eq_true.mp (hall r)
  rcases mem_integer (h ▸ hc) with rfl | hdigit
  · exact absurd hletter (by decide)
  · simp [hdigit] at hletter

theorem hex_ne_integer (m : Nat) (n : Int) : hex m ≠ integer n := by
  intro h
  have hx : 'x' ∈ (hex m).toList := by simp [hex]
  exact notMem_integer (by decide) n (h ▸ hx)

theorem displacement_ne_integer (m : Int) (r : Reg) (n : Int) : displacement m r ≠ integer n := by
  intro h
  have hopen : '(' ∈ (displacement m r).toList := by simp [toList_displacement]
  exact notMem_integer (by decide) n (h ▸ hopen)

theorem displacement_ne_hex (m : Int) (r : Reg) (n : Nat) : displacement m r ≠ hex n := by
  intro h
  have hopen : '(' ∈ (displacement m r).toList := by simp [toList_displacement]
  exact absurd (mem_hex (h ▸ hopen)) (by decide)

end Text

namespace Assembly

def mnemonic : Assembly → String
  | bare m | registers m _ _ _ | immediate m _ _ _ | displaced m _ _ _ | upper m _ _
  | far m _ _ => m
  | unknown _ => "unknown"

def operands : Assembly → List String
  | bare _ => []
  | registers _ rd rs1 rs2 => [rd.name ++ ",", rs1.name ++ ",", rs2.name]
  | immediate _ r1 r2 n => [r1.name ++ ",", r2.name ++ ",", Text.integer n]
  | displaced _ r n base => [r.name ++ ",", Text.displacement n base]
  | upper _ rd n => [rd.name ++ ",", Text.hex n]
  | far _ rd n => [rd.name ++ ",", Text.integer n]
  | unknown w => ["(" ++ Text.hex8 w.toNat ++ ")"]

def parts (a : Assembly) : List (List Char) :=
  a.mnemonic.toList :: a.operands.map String.toList

theorem toList_text (a : Assembly) : a.text.toList = [' '].intercalate a.parts := by
  cases a <;> simp [text, parts, mnemonic, operands, Text.displacement]

theorem blank_notMem_operands (a : Assembly) : ∀ o ∈ a.operands, ' ' ∉ o.toList := by
  have hname (r : Reg) : ' ' ∉ r.name.toList := fun h =>
    absurd (Reg.isAlphanum_of_mem_name h) (by decide)
  have hinteger (n : Int) : ' ' ∉ (Text.integer n).toList := Text.notMem_integer (by decide) n
  have hhex (n : Nat) : ' ' ∉ (Text.hex n).toList := fun h => absurd (Text.mem_hex h) (by decide)
  have hhex8 (n : Nat) : ' ' ∉ (Text.hex8 n).toList := fun h =>
    absurd (Text.mem_hex8 h) (by decide)
  cases a <;> simp [operands, Text.displacement, hname, hinteger, hhex, hhex8]

theorem parts_inj {a b : Assembly} (ha : ' ' ∉ a.mnemonic.toList) (hb : ' ' ∉ b.mnemonic.toList)
    (h : a.text = b.text) : a.mnemonic = b.mnemonic ∧ a.operands = b.operands := by
  have hsplit : ∀ c : Assembly, ' ' ∉ c.mnemonic.toList →
      c.text.toList.splitOn ' ' = c.parts := by
    intro c hc
    rw [toList_text]
    refine List.splitOn_intercalate ' ' ?_ (List.cons_ne_nil _ _)
    intro part hpart
    rcases List.mem_cons.mp hpart with rfl | hoperand
    · exact hc
    · obtain ⟨o, ho, rfl⟩ := List.mem_map.mp hoperand
      exact c.blank_notMem_operands o ho
  have hparts : a.parts = b.parts := by rw [← hsplit a ha, ← hsplit b hb, h]
  obtain ⟨hmnemonic, hoperands⟩ := List.cons.inj hparts
  exact ⟨String.toList_inj.mp hmnemonic,
    List.map_inj_right (fun _ _ => String.toList_inj.mp) |>.mp hoperands⟩

/-- Operands show of what kinds they are, and how many. -/
theorem operands_inj {a b : Assembly} (hm : a.mnemonic = b.mnemonic)
    (ho : a.operands = b.operands) : a = b := by
  have hinteger_name (n : Int) (r : Reg) := (Text.name_ne_integer r n).symm
  have hinteger_hex (n : Int) (k : Nat) := (Text.hex_ne_integer k n).symm
  have hinteger_displacement (n m : Int) (r : Reg) := (Text.displacement_ne_integer m r n).symm
  have hhex_displacement (k : Nat) (m : Int) (r : Reg) := (Text.displacement_ne_hex m r k).symm
  cases a <;> cases b
  all_goals
    simp only [mnemonic, operands, List.cons.injEq, List.cons_ne_self, List.ne_cons_self,
      List.nil_eq, reduceCtorEq, and_true, and_false, bare.injEq, registers.injEq,
      immediate.injEq, displaced.injEq, upper.injEq, far.injEq, unknown.injEq,
      String.append_left_inj, String.append_right_inj, Reg.name_inj, Text.displacement_inj,
      Text.integer_inj, Text.hex_inj, Text.hex8_inj, Text.name_ne_integer, Text.hex_ne_integer,
      Text.displacement_ne_integer, Text.displacement_ne_hex, hinteger_name, hinteger_hex,
      hinteger_displacement, hhex_displacement] at hm ho ⊢
  -- two lines of one kind are left
  case bare.bare => exact hm
  case unknown.unknown => exact BitVec.toNat_inj.mp ho
  all_goals exact ⟨hm, ho⟩

theorem text_inj {a b : Assembly} (ha : ' ' ∉ a.mnemonic.toList) (hb : ' ' ∉ b.mnemonic.toList)
    (h : a.text = b.text) : a = b := by
  obtain ⟨hmnemonic, hoperands⟩ := parts_inj ha hb h
  exact operands_inj hmnemonic hoperands

end Assembly

end FiveStage
