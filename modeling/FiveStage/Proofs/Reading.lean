import FiveStage.Proofs.Tokens

/-!
# What readers make of written values

Each reader is given a meaning, as a function of values: what it takes from a
text depends on the value that stands there and not on how it is written. It
takes the text of the value exactly, and fails on a value that has no meaning
to it. A record means what its members make of the defaults, one after the
other, if each name is known and stands once.
-/

set_option autoImplicit false

namespace FiveStage.Json

variable {α β : Type} {c : Char} {l k r : List Char} {v : Value}

theorem toOption_map (f : α → β) (x : Except Failure α) :
    (x.map f).toOption = x.toOption.map f := by
  cases x <;> rfl

theorem ok_of_toOption {x : Except Failure α} {a : α} (h : x.toOption = some a) : x = .ok a := by
  cases x with
  | ok b => exact congrArg Except.ok (Option.some.inj h)
  | error f => cases h

theorem error_of_toOption {x : Except Failure α} (h : x.toOption = none) :
    ∃ f, x = .error f := by
  cases x with
  | ok b => cases h
  | error f => exact ⟨f, rfl⟩

/-- A reader takes what the value before it means, and leaves the text behind it. -/
def Reads (meaning : Value → Option α) (read : Reader α) : Prop :=
  ∀ {v : Value} {l k r : List Char}, Blanks l k → v.Written k r → Ends r →
    (read l).toOption = (meaning v).map fun a => (a, r)

namespace Value

def opens : Value → Char → Bool
  | null, c => c == 'n'
  | bool true, c => c == 't'
  | bool false, c => c == 'f'
  | number _, c => c == '-' || Number.isDigit c
  | string _, c => c == '"'
  | array _, c => c == '['
  | object _, c => c == '\x7b'

theorem Written.opens (h : v.Written l r) : ∃ c k, l = c :: k ∧ v.opens c = true := by
  cases h with
  | @number n _ _ h =>
    cases h with
    | parts =>
      obtain ⟨c, ds, hds, hc⟩ := toDigits_cons n.whole
      rw [hds]
      cases n.negative with
      | true => exact ⟨_, _, rfl, rfl⟩
      | false => exact ⟨_, _, rfl, Bool.or_eq_true_iff.mpr (.inr hc)⟩
  | string h =>
    cases h with
    | chars => exact ⟨_, _, rfl, rfl⟩
  | _ => exact ⟨_, _, rfl, rfl⟩

theorem kind_of_opens (h : v.opens c = true) :
    (c = 'n' → v = null) ∧ (c = 't' → v = bool true) ∧ (c = 'f' → v = bool false) ∧
      (c = '-' ∨ Number.isDigit c = true → ∃ n, v = number n) ∧
      (c = '[' → ∃ vs, v = array vs) ∧ (c = '\x7b' → ∃ ms, v = object ms) := by
  rcases v with _ | (_ | _) | _ | _ | _ | _
  case number =>
    have hother : ∀ d, d ≠ '-' → Number.isDigit d = false → c ≠ d := by
      rintro d hd hdigit rfl
      simp [opens, hd, hdigit] at h
    simp [hother, Number.isDigit]
  all_goals
    obtain rfl := eq_of_beq h
    simp [Number.isDigit]

theorem not_blank_of_opens (h : v.opens c = true) : isBlank c = false := by
  refine Bool.eq_false_iff.mpr fun hc => ?_
  rcases v with _ | (_ | _) | _ | _ | _ | _
  all_goals rcases isBlank_iff.mp hc with rfl | rfl | rfl | rfl <;> exact Bool.false_ne_true h

theorem Written.skip (h : v.Written k r) (hl : Blanks l k) :
    ∃ c m, k = c :: m ∧ skipBlanks l = c :: m ∧ v.opens c = true := by
  obtain ⟨c, m, rfl, hc⟩ := h.opens
  exact ⟨c, m, rfl, hl.skip_cons (not_blank_of_opens hc), hc⟩

end Value

theorem Padded.skip (h : Padded v l r) :
    ∃ c k, skipBlanks l = c :: k ∧ v.opens c = true ∧ Padded v (c :: k) r := by
  cases h with
  | value before value after =>
    obtain ⟨c, k, rfl, hskip, hc⟩ := value.skip before
    exact ⟨c, k, hskip, hc, .value .none value after⟩

namespace Value

def bool? : Value → Option Bool
  | bool b => some b
  | _ => none

def natural? (limit : Nat) : Value → Option Nat
  | number n =>
    if n.negative = false ∧ n.fraction = none ∧ n.exponent = none ∧ n.whole < limit then
      some n.whole
    else none
  | _ => none

def option? (meaning : Value → Option α) : Value → Option (Option α)
  | null => some none
  | v => (meaning v).map some

end Value

theorem stripWord?_append (w : String) (r : List Char) : stripWord? w (w.toList ++ r) = some r := by
  simp [stripWord?, ← String.length_toList]

theorem stripWord?_other {w : String} {d : Char} {ds : List Char} (hw : w.toList = d :: ds)
    (h : c ≠ d) : stripWord? w (c :: k) = none := by
  simp [stripWord?, hw, h.symm]

theorem reads_bool : Reads Value.bool? readBool := by
  intro v l k r hl hv _
  obtain ⟨c, k, rfl, hskip, hc⟩ := hv.skip hl
  rw [readBool, hskip]
  cases v with
  | bool b =>
    cases hv with
    | yes =>
      have hword : stripWord? "true" ('t' :: 'r' :: 'u' :: 'e' :: r) = some r :=
        stripWord?_append "true" r
      simp only [hword]
      rfl
    | no =>
      have hword : stripWord? "false" ('f' :: 'a' :: 'l' :: 's' :: 'e' :: r) = some r :=
        stripWord?_append "false" r
      have hother : stripWord? "true" ('f' :: 'a' :: 'l' :: 's' :: 'e' :: r) = none :=
        stripWord?_other (d := 't') rfl (by decide)
      simp only [hword, hother]
      rfl
  | _ =>
    obtain ⟨-, htrue, hfalse, -⟩ := Value.kind_of_opens hc
    have ht : c ≠ 't' := fun h => by cases htrue h
    have hf : c ≠ 'f' := fun h => by cases hfalse h
    have htrue : stripWord? "true" (c :: k) = none := stripWord?_other (d := 't') rfl ht
    have hfalse : stripWord? "false" (c :: k) = none := stripWord?_other (d := 'f') rfl hf
    simp only [htrue, hfalse]
    rfl

theorem plain?_eq_some_iff {negative : Bool} {n : Nat} {m : Int} :
    Number.plain? negative n = some m ∧ 0 ≤ m ↔ negative = false ∧ m = n := by
  cases negative with
  | true =>
    simp only [Number.plain?, Bool.not_true, Bool.false_eq_true, if_false,
      Option.ite_none_right_eq_some, Option.some.injEq]
    constructor
    · rintro ⟨⟨⟨hn, -⟩, rfl⟩, hm⟩
      omega
    · rintro ⟨h, -⟩
      cases h
  | false =>
    simp only [Number.plain?, Bool.not_false, if_true, Option.some.injEq]
    constructor
    · rintro ⟨rfl, -⟩
      exact ⟨trivial, rfl⟩
    · rintro ⟨-, rfl⟩
      exact ⟨rfl, Int.natCast_nonneg n⟩

theorem reads_natural {limit : Nat} (hlimit : limit ≤ Nat.pow 2 64) (expected : String) :
    Reads (Value.natural? limit) (readNat limit expected) := by
  intro v l k r hl hv hr
  obtain ⟨c, k, rfl, hskip, hc⟩ := hv.skip hl
  rw [readNat, hskip]
  cases v with
  | number n =>
    have hfirst : c = '-' ∨ Number.isDigit c = true := by
      rwa [Value.opens, Bool.or_eq_true, beq_iff_eq] at hc
    cases hv with
    | number h =>
      have hread := h.read hr
      have hinteger := @ofDigits?_eq_integer_iff n.negative n.whole n.fraction n.exponent
      simp only [if_pos hfirst, hread, Value.natural?]
      by_cases hn : n.negative = false ∧ n.fraction = none ∧ n.exponent = none ∧ n.whole < limit
      · obtain ⟨hneg, hf, he, hlt⟩ := hn
        have hplain : Number.plain? n.negative n.whole = some (n.whole : Int) :=
          (plain?_eq_some_iff.mpr ⟨hneg, rfl⟩).1
        have hdigits := hinteger.mpr ⟨hf, he, Nat.lt_of_lt_of_le hlt hlimit, hplain⟩
        have hin : 0 ≤ (n.whole : Int) ∧ (n.whole : Int) < limit := by omega
        rw [hdigits, if_pos ⟨hneg, hf, he, hlt⟩]
        simp only [Option.elim, if_pos hin]
        rfl
      · rw [if_neg hn]
        cases hd : Number.ofDigits? n.negative (Nat.toDigits 10 n.whole) n.fraction n.exponent with
        | none => rfl
        | some x =>
          cases x with
          | float => rfl
          | integer m =>
            obtain ⟨hf, he, -, hplain⟩ := hinteger.mp hd
            have hout : ¬(0 ≤ m ∧ m < limit) := by
              rintro ⟨hpos, hlt⟩
              obtain ⟨hneg, rfl⟩ := plain?_eq_some_iff.mp ⟨hplain, hpos⟩
              exact hn ⟨hneg, hf, he, by omega⟩
            simp only [Option.elim, if_neg hout]
            rfl
  | _ =>
    obtain ⟨-, -, -, hnumber, -⟩ := Value.kind_of_opens hc
    have hfirst : ¬(c = '-' ∨ Number.isDigit c = true) := fun h => by
      obtain ⟨n, hn⟩ := hnumber h
      cases hn
    simp only [if_neg hfirst]
    rfl

theorem reads_option {meaning : Value → Option α} {read : Reader α} (h : Reads meaning read) :
    Reads (Value.option? meaning) (readOption read) := by
  intro v l k r hl hv hr
  obtain ⟨c, k, rfl, hskip, hc⟩ := hv.skip hl
  rw [readOption, hskip]
  by_cases hn : c = 'n'
  · obtain rfl := (Value.kind_of_opens hc).1 hn
    cases hv with
    | null =>
      have hword : stripWord? "null" ('n' :: 'u' :: 'l' :: 'l' :: r) = some r :=
        stripWord?_append "null" r
      simp only [hword]
      rfl
  · have hread := h .none hv hr
    have hmeaning : Value.option? meaning v = (meaning v).map some := by
      cases v with
      | null => exact absurd (eq_of_beq hc) hn
      | _ => rfl
    rw [hmeaning]
    split
    · rename_i heq
      exact absurd (List.cons.inj heq).1 hn
    · rw [toOption_map, hread, Option.map_map, Option.map_map]
      rfl

theorem Reads.map {meaning : Value → Option α} {read : Reader α} (h : Reads meaning read)
    (f : α → β) :
    Reads (fun v => (meaning v).map f) fun cs => (read cs).map fun (a, r) => (f a, r) := by
  intro v l k r hl hv hr
  rw [toOption_map, h hl hv hr, Option.map_map, Option.map_map]
  rfl

/-- A member of a record with what its values mean, given what was read before. -/
structure Setting (α : Type) extends Member α where
  meaning : α → Value → Option α
  reads : ∀ a, Reads (meaning a) (read a)

/-- Members are taken in their order. Each is one of those still awaited. -/
def takeMembers : List (Setting α) → α → List (String × Value) → Option α
  | _, a, [] => some a
  | fields, a, (name, v) :: ms =>
    (fields.find? fun f => f.name == name).bind fun f =>
      (f.meaning a v).bind fun b => takeMembers (fields.filter fun f => f.name != name) b ms

def takeElements : List (Setting α) → α → List Value → Option α
  | _, a, [] => some a
  | [], _, _ :: _ => none
  | f :: fields, a, v :: vs => (f.meaning a v).bind fun b => takeElements fields b vs

def takeRecord (fields : List (Setting α)) (a : α) : Value → Option α
  | .object ms => takeMembers fields a ms
  | .array vs => takeElements fields a vs
  | _ => none

section Records
variable {fields : List (Setting α)} {a : α}

def membersOf (fields : List (Setting α)) : List (Member α) :=
  fields.map Setting.toMember

theorem Quoted.readKey {name : String} (h : Quoted name k r) (hl : Blanks l k) :
    readKey l = .ok (name, r) := by
  obtain ⟨k, rfl, hread⟩ := h.read
  rw [Json.readKey, hl.expect (by decide)]
  exact hread

theorem Reads.cases {meaning : Value → Option α} {read : Reader α} (h : Reads meaning read)
    (hl : Blanks l k) (hv : v.Written k r) (hr : Ends r) :
    (∃ b, meaning v = some b ∧ read l = .ok (b, r)) ∨
      meaning v = none ∧ ∃ f, read l = .error f := by
  have hread := h hl hv hr
  cases hm : meaning v with
  | none => exact .inr ⟨rfl, error_of_toOption (hread.trans (congrArg _ hm))⟩
  | some b => exact .inl ⟨b, rfl, ok_of_toOption (hread.trans (congrArg _ hm))⟩

/-- A value is read to its end, and what stands behind it is found behind blanks. -/
theorem Reads.padded {meaning : Value → Option α} {read : Reader α} (h : Reads meaning read)
    (hv : Padded v l (c :: r)) (hc : c = ',' ∨ c = ']' ∨ c = '\x7d') :
    (∃ b k, meaning v = some b ∧ read l = .ok (b, k) ∧ skipBlanks k = c :: r) ∨
      meaning v = none ∧ ∃ e, read l = .error e := by
  cases hv with
  | @value _ _ _ k _ before value after =>
    have hblank : isBlank c = false := by
      rcases hc with rfl | rfl | rfl <;> decide
    have hends : Ends (c :: r) := by
      intro d hd
      obtain rfl := Option.some.inj hd
      exact .inr hc
    rcases Reads.cases h before value (after.ends hends) with ⟨b, hb, hread⟩ | hnone
    · exact .inl ⟨b, k, hb, hread, after.skip_cons hblank⟩
    · exact .inr hnone

theorem find?_membersOf (name : String) :
    (membersOf fields).find? (fun m => m.name == name) =
      (fields.find? fun f => f.name == name).map Setting.toMember :=
  List.find?_map ..

theorem without_membersOf (name : String) :
    Shape.without name (membersOf fields) = membersOf (fields.filter fun f => f.name != name) :=
  List.filter_map

theorem Shape.readMembers_named (s : Shape α) {name : String} (h : Named name v l (c :: r))
    (hc : c = ',' ∨ c = '\x7d') :
    (s.readMembers (membersOf fields) a l).toOption =
      (fields.find? fun f => f.name == name).bind fun f => (f.meaning a v).bind fun b =>
        if c = '\x7d' then some (b, r)
        else (s.readMembers (membersOf (fields.filter fun f => f.name != name)) b r).toOption := by
  cases h with
  | member before quoted colon value =>
    rw [Shape.readMembers, quoted.readKey before]
    simp only
    split
    · rename_i hfind
      rw [find?_membersOf, Option.map_eq_none_iff] at hfind
      rw [hfind]
      rfl
    · rename_i m hfind
      rw [find?_membersOf, Option.map_eq_some_iff] at hfind
      obtain ⟨f, hfind, rfl⟩ := hfind
      rw [hfind, colon.expect (by decide)]
      rcases Reads.padded (f.reads a) value (hc.imp_right .inr) with
        ⟨b, k, hb, hread, hskip⟩ | ⟨hb, e, hread⟩
      · simp only [Except.bind, hread, hskip, hb, Option.bind_some]
        rcases hc with rfl | rfl
        · rw [without_membersOf]
          rfl
        · rfl
      · simp only [Except.bind, hread, Option.bind_some, hb]
        rfl

theorem Shape.readMembers_written (s : Shape α) {ms : List (String × Value)}
    (h : Members ms l r) :
    (s.readMembers (membersOf fields) a l).toOption = (takeMembers fields a ms).map (·, r) := by
  induction ms generalizing fields a l with
  | nil => cases h
  | cons m ms ih =>
    obtain ⟨name, v⟩ := m
    rw [takeMembers]
    cases h with
    | last member =>
      rw [s.readMembers_named member (.inr rfl)]
      cases fields.find? fun f => f.name == name with
      | none => rfl
      | some f => cases hb : f.meaning a v <;> simp [hb, takeMembers]
    | more member rest =>
      rw [s.readMembers_named member (.inl rfl)]
      cases fields.find? fun f => f.name == name with
      | none => rfl
      | some f =>
        cases hb : f.meaning a v with
        | none => simp [hb]
        | some b => simpa [hb] using ih rest

theorem Members.skip {ms : List (String × Value)} (h : Members ms l r) :
    ∃ k, skipBlanks l = '"' :: k ∧ Members ms ('"' :: k) r := by
  have hnamed : ∀ {name v l r}, Named name v l r →
      ∃ k, skipBlanks l = '"' :: k ∧ Named name v ('"' :: k) r := by
    intro name v l r h
    cases h with
    | member before quoted colon value =>
      cases quoted with
      | chars hs =>
        exact ⟨_, before.skip_cons (by decide), .member .none (.chars hs) colon value⟩
  cases h with
  | last member =>
    obtain ⟨k, hk, h⟩ := hnamed member
    exact ⟨k, hk, .last h⟩
  | more member rest =>
    obtain ⟨k, hk, h⟩ := hnamed member
    exact ⟨k, hk, .more h rest⟩

theorem Shape.readElements_written {f : Setting α} {vs : List Value}
    (h : Elements (v :: vs) l r) :
    (match f.read a l with
      | .error e => .error e
      | .ok (b, k) => Shape.readElements (membersOf fields) b k :
      Except Failure (α × List Char)).toOption =
      (takeElements (f :: fields) a (v :: vs)).map (·, r) := by
  induction vs generalizing f fields a v l with
  | nil =>
    cases h with
    | last value =>
      rcases Reads.padded (f.reads a) value (.inr (.inl rfl)) with
        ⟨b, k, hb, hread, hskip⟩ | ⟨hb, e, hread⟩
      · simp only [hread, takeElements, hb, Option.bind_some]
        rw [Shape.readElements, hskip]
        rfl
      · simp only [hread, takeElements, hb]
        rfl
    | more _ rest => cases rest
  | cons w vs ih =>
    cases h with
    | more value rest =>
      rcases Reads.padded (f.reads a) value (.inl rfl) with
        ⟨b, k, hb, hread, hskip⟩ | ⟨hb, e, hread⟩
      · rw [takeElements]
        simp only [hread, hb, Option.bind_some]
        rw [Shape.readElements, hskip]
        cases fields with
        | nil => rfl
        | cons g fields => exact ih rest
      · simp only [hread, takeElements, hb]
        rfl

theorem Shape.readObject_written {s : Shape α} (hs : s.members = membersOf fields)
    {ms : List (String × Value)} (h : (Value.object ms).Written ('\x7b' :: l) r) :
    (s.readObject a l).toOption = (takeMembers fields a ms).map (·, r) := by
  cases h with
  | emptyObject h =>
    rw [Shape.readObject, h.skip_cons (by decide)]
    rfl
  | object h =>
    obtain ⟨k, hk, h⟩ := h.skip
    rw [Shape.readObject, hk, hs]
    exact s.readMembers_written h

theorem Shape.readArray_written {s : Shape α} (hs : s.members = membersOf fields)
    {vs : List Value} (h : (Value.array vs).Written ('[' :: l) r) :
    (s.readArray a l).toOption = (takeElements fields a vs).map (·, r) := by
  cases h with
  | emptyArray h =>
    rw [Shape.readArray, h.skip_cons (by decide)]
    cases s.members <;> cases fields <;> rfl
  | array h =>
    have hfirst : ∃ v ws c k, vs = v :: ws ∧ skipBlanks l = c :: k ∧ v.opens c = true ∧
        Elements (v :: ws) (c :: k) r := by
      cases h with
      | last value =>
        obtain ⟨c, k, hk, hc, value⟩ := value.skip
        exact ⟨_, _, c, k, rfl, hk, hc, .last value⟩
      | more value rest =>
        obtain ⟨c, k, hk, hc, value⟩ := value.skip
        exact ⟨_, _, c, k, rfl, hk, hc, .more value rest⟩
    obtain ⟨v, ws, c, k, rfl, hk, hc, h⟩ := hfirst
    have hclose : c ≠ ']' := by
      rintro rfl
      rcases v with _ | (_ | _) | _ | _ | _ | _ <;> exact Bool.false_ne_true hc
    rw [Shape.readArray, hk, hs]
    cases fields with
    | nil =>
      split
      · rename_i heq
        exact absurd (List.cons.inj heq).1 hclose
      · rfl
      · rename_i heq _
        cases heq
    | cons f fields =>
      split
      · rename_i heq
        exact absurd (List.cons.inj heq).1 hclose
      · rename_i heq _
        cases heq
      · rename_i heq _
        cases heq
        exact Shape.readElements_written h

theorem reads_shape (s : Shape α) (hs : s.members = membersOf fields) (a : α) :
    Reads (takeRecord fields a) (s.read a) := by
  intro v l k r hl hv _
  obtain ⟨c, k, rfl, hskip, hc⟩ := hv.skip hl
  rw [Shape.read, hskip]
  obtain ⟨-, -, -, -, harray, hobject⟩ := Value.kind_of_opens hc
  cases v with
  | array vs =>
    obtain rfl := eq_of_beq hc
    exact Shape.readArray_written hs hv
  | object ms =>
    obtain rfl := eq_of_beq hc
    exact Shape.readObject_written hs hv
  | _ =>
    split
    · rename_i heq
      obtain ⟨ms, hms⟩ := hobject (List.cons.inj heq).1
      cases hms
    · rename_i heq
      obtain ⟨vs, hvs⟩ := harray (List.cons.inj heq).1
      cases hvs
    · rfl

/-- A document under a shape means what the value in it means. -/
theorem Shape.readDocument_toOption {s : Shape α} (hs : s.members = membersOf fields)
    {text : String} (h : Document v text) :
    (s.readDocument a text).toOption = takeRecord fields a v := by
  cases h with
  | value before value after =>
    have hends : Ends _ := after.ends fun c hc => by cases hc
    rcases Reads.cases (reads_shape s hs a) before value hends with
      ⟨b, hb, hread⟩ | ⟨hnone, f, hread⟩
    · simp only [Shape.readDocument, hread, after.skip, hb]
      rfl
    · simp only [Shape.readDocument, hread, hnone]
      rfl

end Records

end FiveStage.Json
