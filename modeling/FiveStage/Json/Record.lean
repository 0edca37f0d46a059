import FiveStage.Json.Scalar

/-!
# Records in JSON

A record is written as an object with its members in any order, or as an array
of their values in the order in which the record lists them. Members may be
missing; each that is there changes a value that starts from the defaults. A
name that the record has not, or has already seen, is refused as soon as it is
read.
-/

set_option autoImplicit false

namespace FiveStage.Json

structure Member (α : Type) where
  name : String
  read : α → Reader α

structure Shape (α : Type) where
  title : String
  members : List (Member α)

def expectChar (c : Char) (cs : List Char) : Except Failure (List Char) :=
  match skipBlanks cs with
  | d :: cs => if d = c then .ok cs else .error .malformed
  | [] => .error .malformed

def readKey (cs : List Char) : Except Failure (String × List Char) := do
  let cs ← expectChar '"' cs
  readString cs

namespace Shape

variable {α : Type}

def names (s : Shape α) : List String :=
  s.members.map (·.name)

def refuse (s : Shape α) (key : String) : Failure :=
  if s.names.contains key then .duplicateField key else .unknownField key s.names

def without (key : String) (ms : List (Member α)) : List (Member α) :=
  ms.filter fun m => m.name != key

theorem length_without_lt {m : Member α} {ms : List (Member α)} {key : String} (hm : m ∈ ms)
    (hk : m.name = key) : (without key ms).length < ms.length := by
  refine List.length_filter_lt_length_iff_exists.2 ⟨m, hm, ?_⟩
  simpa using hk

/-- The members of an object from a name on. `pending` are those not yet seen,
so every round leaves fewer. -/
def readMembers (s : Shape α) (pending : List (Member α)) (v : α) (cs : List Char) :
    Except Failure (α × List Char) :=
  match readKey cs with
  | .error e => .error e
  | .ok (key, cs) =>
    match _h : pending.find? (fun m => m.name == key) with
    | none => .error (s.refuse key)
    | some m =>
      match (expectChar ':' cs).bind (m.read v) with
      | .error e => .error e
      | .ok (v, cs) =>
        match skipBlanks cs with
        | '\x7d' :: cs => .ok (v, cs)
        | ',' :: cs => readMembers s (without key pending) v cs
        | _ => .error .malformed
termination_by pending.length
decreasing_by
  have hm := List.mem_of_find?_eq_some _h
  have hk := List.find?_some _h
  exact length_without_lt hm (by simpa using hk)

def readObject (s : Shape α) (v : α) (cs : List Char) : Except Failure (α × List Char) :=
  match skipBlanks cs with
  | '\x7d' :: cs => .ok (v, cs)
  | cs => s.readMembers s.members v cs

def readElements : List (Member α) → α → List Char → Except Failure (α × List Char)
  | ms, v, cs =>
    match skipBlanks cs with
    | ']' :: cs => .ok (v, cs)
    | ',' :: cs =>
      match ms with
      | [] => .error .malformed
      | m :: ms =>
        match m.read v cs with
        | .error e => .error e
        | .ok (v, cs) => readElements ms v cs
    | _ => .error .malformed

def readArray (s : Shape α) (v : α) (cs : List Char) : Except Failure (α × List Char) :=
  match skipBlanks cs, s.members with
  | ']' :: cs, _ => .ok (v, cs)
  | _, [] => .error .malformed
  | cs, m :: ms =>
    match m.read v cs with
    | .error e => .error e
    | .ok (v, cs) => readElements ms v cs

def read (s : Shape α) (v : α) : Reader α := fun cs =>
  match skipBlanks cs with
  | '\x7b' :: cs => s.readObject v cs
  | '[' :: cs => s.readArray v cs
  | cs => .error (mismatch ("struct " ++ s.title) cs)

def readDocument (s : Shape α) (v : α) (text : String) : Except Failure α :=
  match s.read v text.toList with
  | .error e => .error e
  | .ok (v, cs) => if (skipBlanks cs).isEmpty then .ok v else .error .malformed

end Shape

end FiveStage.Json
