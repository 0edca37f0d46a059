import FiveStage.Machine.Boot
import FiveStage.Proofs.Reading

/-!
# Documents of configurations

A configuration may be written in many ways: members come in any order, and
those with their defaults may be missing, or whole sections of them. Each
document of it reads back. A member of another name, or a second one of the
same name, makes a document unreadable, whatever else stands in it.
-/

set_option autoImplicit false

namespace FiveStage

namespace Json

/-- A member that an object may have: the values that it may have, and whether
it may be left out. -/
structure Entry where
  name : String
  writes : Value → Prop
  omitted : Prop

/-- Members in any order, none of them twice. Missing are only those that may be. -/
structure Lists (entries : List Entry) (ms : List (String × Value)) : Prop where
  once : (namesOf ms).Nodup
  written : ∀ m ∈ ms, ∃ e ∈ entries, e.name = m.1 ∧ e.writes m.2
  rest : ∀ e ∈ entries, e.name ∉ namesOf ms → e.omitted

def Entry.object (name : String) (entries : List Entry) : Entry :=
  { name := name
    writes := fun v => ∃ ms, v = .object ms ∧ Lists entries ms
    omitted := ∀ e ∈ entries, e.omitted }

/-- A name is not known, or stands more than once. -/
def Strange (known : List String) (ms : List (String × Value)) : Prop :=
  (∃ m ∈ ms, m.1 ∉ known) ∨ ¬(namesOf ms).Nodup

section Members
variable {α : Type} {fields : List (Setting α)} {a b : α} {ms : List (String × Value)}

theorem find?_named {name : String} {f : Setting α}
    (h : (fields.find? fun f => f.name == name) = some f) : f ∈ fields ∧ f.name = name :=
  ⟨List.mem_of_find?_eq_some h, by simpa using List.find?_some h⟩

/-- `part` is the record in which the members of some names have been read. -/
theorem takeMembers_listed {part : List String → α} {seen : List String}
    (hstep : ∀ f ∈ fields, ∀ v, (f.name, v) ∈ ms → ∀ seen,
      f.meaning (part seen) v = some (part (f.name :: seen)))
    (honce : (namesOf ms).Nodup) (hknown : ∀ n ∈ namesOf ms, ∃ f ∈ fields, f.name = n) :
    takeMembers fields (part seen) ms = some (part ((namesOf ms).reverse ++ seen)) := by
  induction ms generalizing fields seen with
  | nil => rfl
  | cons m ms ih =>
    obtain ⟨name, v⟩ := m
    obtain ⟨hnew, htail⟩ := List.nodup_cons.mp honce
    obtain ⟨f, hfind⟩ : ∃ f, (fields.find? fun f => f.name == name) = some f := by
      rw [← Option.isSome_iff_exists, List.find?_isSome]
      obtain ⟨f, hf, hname⟩ := hknown name (List.mem_cons_self ..)
      exact ⟨f, hf, beq_iff_eq.mpr hname⟩
    obtain ⟨hf, rfl⟩ := find?_named hfind
    rw [takeMembers, hfind, Option.bind_some, hstep f hf v (List.mem_cons_self ..),
      Option.bind_some, ih ?_ htail ?_]
    · show _ = some (part ((f.name :: namesOf ms).reverse ++ seen))
      rw [List.reverse_cons, List.append_assoc]
      rfl
    · intro g hg w hw
      exact hstep g (List.mem_filter.mp hg).1 w (List.mem_cons_of_mem _ hw)
    · intro n hn
      obtain ⟨g, hg, rfl⟩ := hknown n (List.mem_cons_of_mem _ hn)
      have hne : g.name ≠ f.name := fun h => hnew (h ▸ hn)
      exact ⟨g, List.mem_filter.mpr ⟨hg, bne_iff_ne.mpr hne⟩, rfl⟩

theorem Lists.takeMembers {entries : List Entry} (h : Lists entries ms)
    (fields : List (Setting α)) (part : List String → α)
    (hnames : ∀ e ∈ entries, ∃ f ∈ fields, f.name = e.name)
    (hstep : ∀ f ∈ fields, ∀ e ∈ entries, e.name = f.name → ∀ v, e.writes v → ∀ seen,
      f.meaning (part seen) v = some (part (f.name :: seen))) :
    takeMembers fields (part []) ms = some (part (namesOf ms).reverse) := by
  rw [takeMembers_listed ?_ h.once ?_, List.append_nil]
  · intro f hf v hv
    obtain ⟨e, he, hname, hwrites⟩ := h.written _ hv
    exact hstep f hf e he hname v hwrites
  · intro n hn
    obtain ⟨m, hm, rfl⟩ := List.mem_map.mp hn
    obtain ⟨e, he, hname, -⟩ := h.written m hm
    exact hname ▸ hnames e he

theorem takeMembers_orderly (h : takeMembers fields a ms = some b) :
    (namesOf ms).Nodup ∧
      ∀ m ∈ ms, ∃ f ∈ fields, f.name = m.1 ∧ ∃ a b, f.meaning a m.2 = some b := by
  induction ms generalizing fields a with
  | nil => exact ⟨List.nodup_nil, fun m hm => absurd hm List.not_mem_nil⟩
  | cons m ms ih =>
    obtain ⟨name, v⟩ := m
    obtain ⟨f, hfind, h⟩ := Option.bind_eq_some_iff.mp h
    obtain ⟨a', hmeaning, h⟩ := Option.bind_eq_some_iff.mp h
    obtain ⟨honce, hrest⟩ := ih h
    obtain ⟨hf, rfl⟩ := find?_named hfind
    constructor
    · refine List.nodup_cons.mpr ⟨fun hn => ?_, honce⟩
      obtain ⟨m, hm, hname⟩ := List.mem_map.mp hn
      obtain ⟨g, hg, hgname, -⟩ := hrest m hm
      exact bne_iff_ne.mp (List.mem_filter.mp hg).2 (hgname.trans hname)
    · intro m hm
      rcases List.mem_cons.mp hm with rfl | hm
      · exact ⟨f, hf, rfl, a, a', hmeaning⟩
      · obtain ⟨g, hg, hg'⟩ := hrest m hm
        exact ⟨g, (List.mem_filter.mp hg).1, hg'⟩

theorem Strange.takeMembers {known : List String} (h : Strange known ms)
    (hknown : ∀ f ∈ fields, f.name ∈ known) : takeMembers fields a ms = none := by
  refine Option.eq_none_iff_forall_ne_some.mpr fun b hb => ?_
  obtain ⟨honce, hmembers⟩ := takeMembers_orderly hb
  rcases h with ⟨m, hm, hstrange⟩ | htwice
  · obtain ⟨f, hf, hname, -⟩ := hmembers m hm
    exact hstrange (hname ▸ hknown f hf)
  · exact htwice honce

end Members

theorem Characters.plain {s r : List Char}
    (h : s.all (fun c => 0x20 ≤ c.toNat && c != '"' && c != '\\') = true) :
    Characters s (s ++ r) r := by
  induction s with
  | nil => exact .none
  | cons c s ih =>
    simp only [List.all_cons, Bool.and_eq_true, decide_eq_true_eq, bne_iff_ne] at h
    obtain ⟨⟨⟨hcontrol, hquote⟩, hbackslash⟩, hs⟩ := h
    exact .more (.plain hcontrol hquote hbackslash) (ih hs)

theorem Quoted.plain (s : String) {r : List Char}
    (h : s.toList.all (fun c => 0x20 ≤ c.toNat && c != '"' && c != '\\') = true) :
    Quoted s ('"' :: (s.toList ++ '"' :: r)) r :=
  .chars (Characters.plain h)

theorem Document.of_text {v : Value} {l : List Char} {text : String} (h : Padded v l [])
    (htext : l = text.toList) : Document v text := by
  rwa [Document, ← htext]

theorem Named.plain (s : String) {v : Value} {l r : List Char}
    (h : s.toList.all (fun c => 0x20 ≤ c.toNat && c != '"' && c != '\\') = true)
    (hv : Padded v l r) : Named s v ('"' :: (s.toList ++ '"' :: ':' :: l)) r :=
  .member .none (Quoted.plain s h) .none hv

theorem Value.natural_written (n : Nat) {r : List Char} :
    (natural n).Written (Nat.toDigits 10 n ++ r) r :=
  .number (.parts .none .none)

end Json

namespace Config

open Json

variable {a c : Config} {v : Value} {ms : List (String × Value)} {text : String}

def pointerValue : Option Word → Value
  | none => .null
  | some sp => .natural sp.toNat

def generalEntries (c : Config) : List Entry :=
  let d : Config := {}
  [⟨"trace_instructions", (· = .bool c.trace), c.trace = d.trace⟩,
   ⟨"start_pc", (· = .natural c.startPc.toNat), c.startPc = d.startPc⟩,
   ⟨"initial_sp", (· = pointerValue c.initialSp), c.initialSp = d.initialSp⟩,
   ⟨"max_cycles", (· = .natural c.maxCycles.toNat), c.maxCycles = d.maxCycles⟩]

def memoryEntries (c : Config) : List Entry :=
  let d : Config := {}
  [⟨"ram_base", (· = .natural c.ramBase.toNat), c.ramBase = d.ramBase⟩,
   ⟨"ram_size", (· = .natural c.ramSize.toNat), c.ramSize = d.ramSize⟩]

def entries (c : Config) : List Entry :=
  [.object "general" c.generalEntries, .object "memory" c.memoryEntries]

def WrittenAs (c : Config) (v : Value) : Prop :=
  ∃ ms, v = .object ms ∧ Lists c.entries ms

/-- One of the objects has a member of a name that it should not have, or one
name twice. -/
inductive Misnamed : Value → Prop where
  | record {ms : List (String × Value)} (h : Strange ["general", "memory"] ms) :
    Misnamed (.object ms)
  | general {ms gs : List (String × Value)} (hm : ("general", .object gs) ∈ ms)
    (h : Strange ["trace_instructions", "start_pc", "initial_sp", "max_cycles"] gs) :
    Misnamed (.object ms)
  | memory {ms gs : List (String × Value)} (hm : ("memory", .object gs) ∈ ms)
    (h : Strange ["ram_base", "ram_size"] gs) : Misnamed (.object ms)

def word? (v : Value) : Option Word :=
  (v.natural? (Nat.pow 2 32)).map (BitVec.ofNat 32)

def count? (v : Value) : Option Count :=
  (v.natural? (Nat.pow 2 64)).map (BitVec.ofNat 64)

theorem reads_word : Reads word? readWord :=
  Reads.map (reads_natural (by decide) "u32") (BitVec.ofNat 32)

theorem reads_count (expected : String) : Reads count? (readCount expected) :=
  Reads.map (reads_natural (Nat.le_refl _) expected) (BitVec.ofNat 64)

theorem word?_natural (w : Word) : word? (.natural w.toNat) = some w := by
  simp [word?, Value.natural, Value.natural?, w.isLt]

theorem count?_natural (n : Count) : count? (.natural n.toNat) = some n := by
  simp [count?, Value.natural, Value.natural?, n.isLt]

theorem pointer?_value (sp : Option Word) : (pointerValue sp).option? word? = some sp := by
  cases sp with
  | none => rfl
  | some w => exact congrArg (Option.map some) (word?_natural w)

def replacing {α : Type} {meaning : Value → Option α} {read : Reader α} (name : String)
    (h : Reads meaning read) (set : Config → α → Config) : Setting Config :=
  { toMember := setting name read set
    meaning := fun a v => (meaning v).map (set a)
    reads := fun a => Reads.map h (set a) }

def generalFields : List (Setting Config) :=
  [replacing "trace_instructions" reads_bool fun c b => { c with trace := b },
   replacing "start_pc" reads_word fun c w => { c with startPc := w },
   replacing "initial_sp" (reads_option reads_word) fun c sp => { c with initialSp := sp },
   replacing "max_cycles" (reads_count "u64") fun c n => { c with maxCycles := n }]

def memoryFields : List (Setting Config) :=
  [replacing "ram_base" reads_word fun c w => { c with ramBase := w },
   replacing "ram_size" (reads_count "usize") fun c n => { c with ramSize := n }]

def fields : List (Setting Config) :=
  [{ name := "general"
     read := fun c => generalShape.read c.bareGeneral
     meaning := fun c => takeRecord generalFields c.bareGeneral
     reads := fun c => reads_shape generalShape rfl c.bareGeneral },
   { name := "memory"
     read := fun c => memoryShape.read c.bareMemory
     meaning := fun c => takeRecord memoryFields c.bareMemory
     reads := fun c => reads_shape memoryShape rfl c.bareMemory }]

theorem read_toOption (h : Document v text) :
    (Config.read text).toOption = takeRecord fields {} v :=
  Shape.readDocument_toOption rfl h

/-- What has been read is as `c` has it, and the rest as it was before. Members come
in any order, so the names seen tell how far the reading has come. -/
def withGeneral (a c : Config) (seen : List String) : Config :=
  { a with
    trace := if "trace_instructions" ∈ seen then c.trace else a.trace
    startPc := if "start_pc" ∈ seen then c.startPc else a.startPc
    initialSp := if "initial_sp" ∈ seen then c.initialSp else a.initialSp
    maxCycles := if "max_cycles" ∈ seen then c.maxCycles else a.maxCycles }

def withMemory (a c : Config) (seen : List String) : Config :=
  { a with
    ramBase := if "ram_base" ∈ seen then c.ramBase else a.ramBase
    ramSize := if "ram_size" ∈ seen then c.ramSize else a.ramSize }

def withSections (a c : Config) (seen : List String) : Config :=
  { trace := if "general" ∈ seen then c.trace else a.trace
    startPc := if "general" ∈ seen then c.startPc else a.startPc
    initialSp := if "general" ∈ seen then c.initialSp else a.initialSp
    maxCycles := if "general" ∈ seen then c.maxCycles else a.maxCycles
    ramBase := if "memory" ∈ seen then c.ramBase else a.ramBase
    ramSize := if "memory" ∈ seen then c.ramSize else a.ramSize }

theorem read_or_default {α : Type} {x d : α} {name : String} {names : List String}
    (h : name ∉ names → x = d) : (if name ∈ names then x else d) = x :=
  ite_eq_left_iff.mpr fun hn => (h hn).symm

theorem takeMembers_general (h : Lists c.generalEntries ms) :
    takeMembers generalFields a.bareGeneral ms =
      some { a with
        trace := c.trace, startPc := c.startPc, initialSp := c.initialSp,
        maxCycles := c.maxCycles } := by
  have hread := h.takeMembers generalFields (a.bareGeneral.withGeneral c) ?_ ?_
  · have hrest := h.rest
    simp only [generalEntries, List.forall_mem_cons] at hrest
    obtain ⟨htrace, hpc, hsp, hcycles, -⟩ := hrest
    refine hread.trans (congrArg some ?_)
    simp only [withGeneral, bareGeneral, List.mem_reverse, read_or_default htrace,
      read_or_default hpc, read_or_default hsp, read_or_default hcycles]
  · simp [generalEntries, generalFields, replacing, setting]
  · simp [generalEntries, generalFields, replacing, setting, withGeneral, Value.bool?,
      word?_natural, count?_natural, pointer?_value]

theorem takeMembers_memory (h : Lists c.memoryEntries ms) :
    takeMembers memoryFields a.bareMemory ms =
      some { a with ramBase := c.ramBase, ramSize := c.ramSize } := by
  have hread := h.takeMembers memoryFields (a.bareMemory.withMemory c) ?_ ?_
  · have hrest := h.rest
    simp only [memoryEntries, List.forall_mem_cons] at hrest
    obtain ⟨hbase, hsize, -⟩ := hrest
    refine hread.trans (congrArg some ?_)
    simp only [withMemory, bareMemory, List.mem_reverse, read_or_default hbase,
      read_or_default hsize]
  · simp [memoryEntries, memoryFields, replacing, setting]
  · simp [memoryEntries, memoryFields, replacing, setting, withMemory, word?_natural,
      count?_natural]

theorem takeMembers_sections (h : Lists c.entries ms) : takeMembers fields {} ms = some c := by
  have hread := h.takeMembers fields (withSections {} c) ?_ ?_
  · have hrest := h.rest
    simp only [entries, Entry.object, generalEntries, memoryEntries, List.forall_mem_cons] at hrest
    obtain ⟨hgeneral, hmemory, -⟩ := hrest
    refine hread.trans (congrArg some ?_)
    simp only [withSections, List.mem_reverse, read_or_default fun h => (hgeneral h).1,
      read_or_default fun h => (hgeneral h).2.1, read_or_default fun h => (hgeneral h).2.2.1,
      read_or_default fun h => (hgeneral h).2.2.2.1,
      read_or_default fun h => (hmemory h).1, read_or_default fun h => (hmemory h).2.1]
  · simp [entries, Entry.object, fields]
  · simp only [fields, entries, List.forall_mem_cons]
    refine ⟨⟨fun _ v hv seen => ?_, fun h => by simp [Entry.object] at h, ?_⟩,
      ⟨fun h => by simp [Entry.object] at h, fun _ v hv seen => ?_, ?_⟩, ?_⟩
    · obtain ⟨gs, rfl, hgs⟩ := hv
      exact (takeMembers_general hgs).trans (by simp [withSections])
    · simp
    · obtain ⟨gs, rfl, hgs⟩ := hv
      exact (takeMembers_memory hgs).trans (by simp [withSections])
    · simp
    · simp

theorem mem_fields {f : Setting Config} (hf : f ∈ fields) :
    f.name = "general" ∧ f.meaning = (fun c => takeRecord generalFields c.bareGeneral) ∨
      f.name = "memory" ∧ f.meaning = fun c => takeRecord memoryFields c.bareMemory := by
  simp only [fields, List.mem_cons, List.not_mem_nil, or_false] at hf
  rcases hf with rfl | rfl
  · exact .inl ⟨rfl, rfl⟩
  · exact .inr ⟨rfl, rfl⟩

theorem Misnamed.takeRecord (h : Misnamed v) : takeRecord fields a v = none := by
  refine Option.eq_none_iff_forall_ne_some.mpr fun b hb => ?_
  -- had the record been read, each of its members would have meant something
  cases h with
  | record h => cases (h.takeMembers (by simp [fields])).symm.trans hb
  | general hm h =>
    obtain ⟨f, hf, hname, a, b, hmeaning⟩ := (takeMembers_orderly hb).2 _ hm
    rcases mem_fields hf with ⟨-, hf⟩ | ⟨hother, -⟩
    · rw [hf] at hmeaning
      cases (h.takeMembers (by simp [generalFields, replacing, setting])).symm.trans hmeaning
    · simp [hother] at hname
  | memory hm h =>
    obtain ⟨f, hf, hname, a, b, hmeaning⟩ := (takeMembers_orderly hb).2 _ hm
    rcases mem_fields hf with ⟨hother, -⟩ | ⟨-, hf⟩
    · simp [hother] at hname
    · rw [hf] at hmeaning
      cases (h.takeMembers (by simp [memoryFields, replacing, setting])).symm.trans hmeaning

/-- Any document of a configuration reads back: it gives the configuration, or
the rule that the configuration breaks. With a member misnamed, whatever else
stands in it, a document is not read at all. -/
theorem document_reads_back :
    (∀ (c : Config) (v : Value) (text : String), c.WrittenAs v → Document v text →
      (c.validate = .ok () → ofDocument text = .ok c) ∧
        ∀ e, c.validate = .error e → ofDocument text = .error (.config e)) ∧
      ∀ (v : Value) (text : String), Misnamed v → Document v text →
        ∃ f, ofDocument text = .error (.json f) := by
  constructor
  · rintro c v text ⟨ms, rfl, hms⟩ hdoc
    have hread : Config.read text = .ok c :=
      ok_of_toOption ((read_toOption hdoc).trans (takeMembers_sections hms))
    constructor
    · intro hvalid
      rw [ofDocument, hread]
      simp only [hvalid]
    · intro e hinvalid
      rw [ofDocument, hread]
      simp only [hinvalid]
  · intro v text hv hdoc
    obtain ⟨f, hread⟩ := error_of_toOption ((read_toOption hdoc).trans hv.takeRecord)
    exact ⟨f, by rw [ofDocument, hread]⟩

/-- The members are out of order, and those with their defaults are left out. -/
def reordered : Config :=
  { maxCycles := 18446744073709551615 }

def reorderedGeneral : List (String × Value) :=
  [("max_cycles", .natural 18446744073709551615), ("initial_sp", .null)]

def reorderedText : String :=
  "\n\x7b\"memory\":\x7b\x7d ,\"general\":" ++
    "\x7b\"max_cycles\":18446744073709551615,\"initial_sp\": null\x7d\x7d"

theorem reordered_written : reordered.WrittenAs
    (.object [("memory", .object []), ("general", .object reorderedGeneral)]) := by
  have hmemory : Lists reordered.memoryEntries [] :=
    ⟨by decide, by simp, by simp [memoryEntries, reordered]⟩
  have hgeneral : Lists reordered.generalEntries reorderedGeneral :=
    ⟨by decide, by simp [reorderedGeneral, generalEntries, reordered, pointerValue],
      by simp [reorderedGeneral, generalEntries, reordered, namesOf]⟩
  exact ⟨_, rfl, by decide, by simp [entries, Entry.object, hmemory, hgeneral],
    by simp [entries, Entry.object, namesOf]⟩

theorem reordered_document : Document
    (.object [("memory", .object []), ("general", .object reorderedGeneral)]) reorderedText := by
  have hspace : ∀ l, Blanks (' ' :: l) l := fun l => .more (.inl rfl) .none
  have hgeneral : ∀ r, Members reorderedGeneral _ r := fun r =>
    .more (.plain "max_cycles" rfl
      (.value .none (Value.natural_written 18446744073709551615) .none))
      (.last (.plain "initial_sp" rfl (.value (hspace _) .null .none)))
  have hsections : Members _ _ [] :=
    .more (.plain "memory" rfl (.value .none (.emptyObject .none) (hspace _)))
      (.last (.plain "general" rfl (.value .none (.object (hgeneral _)) .none)))
  exact .of_text (.value (.more (.inr (.inr (.inl rfl))) .none) (.object hsections) .none)
    (by decide)

def misaligned : Config :=
  { startPc := 2 }

theorem misaligned_written :
    misaligned.WrittenAs (.object [("general", .object [("start_pc", .natural 2)])]) := by
  have hgeneral : Lists misaligned.generalEntries [("start_pc", .natural 2)] :=
    ⟨by decide, by simp [generalEntries, misaligned],
      by simp [generalEntries, misaligned, namesOf]⟩
  exact ⟨_, rfl, by decide, by simp [entries, Entry.object, hgeneral],
    by simp [entries, Entry.object, namesOf, memoryEntries, misaligned]⟩

theorem misaligned_document : Document (.object [("general", .object [("start_pc", .natural 2)])])
    "\x7b\"general\":\x7b\"start_pc\":2\x7d\x7d" :=
  have hgeneral : ∀ r, Members [("start_pc", .natural 2)] _ r := fun r =>
    .last (.plain "start_pc" rfl (.value .none (Value.natural_written 2) .none))
  .of_text (.value .none
    (.object (.last (.plain "general" rfl (.value .none (.object (hgeneral _)) .none)))) .none)
    (by decide)

theorem repeated_document :
    Document (.object [("memory", .object [("ram_size", .null), ("ram_size", .null)])])
      "\x7b\"memory\":\x7b\"ram_size\":null,\"ram_size\":null\x7d\x7d" :=
  have hsize : ∀ {l}, Padded .null ('n' :: 'u' :: 'l' :: 'l' :: l) l := .value .none .null .none
  have hmemory : ∀ r, Members [("ram_size", .null), ("ram_size", .null)] _ r := fun r =>
    .more (.plain "ram_size" rfl hsize) (.last (.plain "ram_size" rfl hsize))
  .of_text (.value .none
    (.object (.last (.plain "memory" rfl (.value .none (.object (hmemory _)) .none)))) .none)
    (by decide)

theorem document_reads_back_reordered :
    ofDocument reorderedText = .ok reordered ∧
      ofDocument "\x7b\"general\":\x7b\"start_pc\":2\x7d\x7d" =
        .error (.config (.misalignedStart 2)) ∧
      ∃ f, ofDocument "\x7b\"memory\":\x7b\"ram_size\":null,\"ram_size\":null\x7d\x7d" =
        .error (.json f) :=
  ⟨(document_reads_back.1 _ _ _ reordered_written reordered_document).1 rfl,
    (document_reads_back.1 _ _ _ misaligned_written misaligned_document).2 _ rfl,
    document_reads_back.2 _ _ (.memory (List.mem_singleton.mpr rfl) (.inr (by decide)))
      repeated_document⟩

end Config

end FiveStage
