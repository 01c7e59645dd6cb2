import Retrace.Json.Decode
/-!
Readers of records with known fields. The fields may come in any order, and fields that are not
known are passed over; a list of the values in their order does as well.
-/
namespace Retrace.Json

open Retrace.Text

/-- A field of a record: its name, whether a list may do without it, whether a draft of the record
has it, and how its value is put into a draft. -/
structure Field (σ : Type) where
  name : String
  optional : Bool
  taken : σ → Bool
  read : Nat → Reader (σ → σ)

namespace Field

variable {σ τ : Type}

/-- The field of the first of two records that are read together. -/
def left (f : Field σ) : Field (σ × τ) :=
  { name := f.name, optional := f.optional, taken := fun d => f.taken d.1
    read := fun room => return Prod.map (← f.read room) id }

def right (f : Field τ) : Field (σ × τ) :=
  { name := f.name, optional := f.optional, taken := fun d => f.taken d.2
    read := fun room => return Prod.map id (← f.read room) }

end Field

/-- How a record is read: what a draft of it consists of, the draft to start with, the fields, and
the record that a draft makes. -/
structure Record (α : Type) where
  Draft : Type
  blank : Draft
  fields : List (Field Draft)
  finish : Draft → Except Cause α

namespace Record

open Reader

variable {α β : Type}

/-- A record with a single field; `missing` stands for one that is not there. -/
def single (name : String) (optional : Bool) (value : Decoder α) (missing : Except Cause α) :
    Record α :=
  { Draft := Option α
    blank := none
    fields := [⟨name, optional, Option.isSome, fun room => do
      let a ← value room
      return fun _ => some a⟩]
    finish := fun draft => match draft with
      | some a => .ok a
      | none => missing }

/-- A field that has to be there. -/
def required (name : String) (value : Decoder α) : Record α :=
  single name false value (.error (.missingField name))

/-- A field that a record may leave out. -/
def possible (name : String) (value : Decoder α) : Record (Option α) :=
  single name false (Decoder.option value) (.ok none)

/-- A field with a value for when it is missing. -/
def withDefault (name : String) (value : Decoder α) (default : α) : Record α :=
  single name true value (.ok default)

/-- Two groups of fields. -/
def both (r : Record α) (s : Record β) : Record (α × β) :=
  { Draft := r.Draft × s.Draft
    blank := (r.blank, s.blank)
    fields := r.fields.map Field.left ++ s.fields.map Field.right
    finish := fun d => return (← r.finish d.1, ← s.finish d.2) }

def map (f : α → β) (r : Record α) : Record β :=
  { r with finish := fun d => (r.finish d).map f }

/-- The function of one group of fields applied to another group. -/
def apply (r : Record (α → β)) (s : Record α) : Record β := (r.both s).map fun p => p.1 p.2

def readField (r : Record α) (room : Nat) (draft : r.Draft) (name : String) : Reader r.Draft :=
  match r.fields.find? fun f => f.name == name with
  | some f =>
    if f.taken draft then refuse (.repeatedField name)
    else return (← fieldValue name (f.read room)) draft
  | none => do
    fieldValue name skipValue
    return draft

/-- Reads the items of a list into a draft, `n` of them being there already. -/
def readItems (room : Nat) (wanted : String) {σ : Type} :
    Nat → List (Field σ) → σ → Reader σ
  | _, [], draft => return draft
  | n, f :: fs, draft => do
    match ← nextItem n (f.read room) with
    | some put => readItems room wanted (n + 1) fs (put draft)
    | none =>
      if f.optional then readItems room wanted (n + 1) fs draft
      else refuse (.wrongLength n wanted)

/-- The name of a record type with the number of its fields. -/
def nameWithSize (name : String) (n : Nat) : String :=
  "struct " ++ name ++ " with " ++ toString n ++ (if n = 1 then " element" else " elements")

/-- Reads a record of the type `name`. -/
def read (r : Record α) (name : String) : Decoder α := fun room => do
  let marked ← next
  if marked = some (some '[') ∨ marked = some opening then
    match room with
    | 0 => tooDeep
    | room + 1 => do
      skip
      if marked = some opening then
        closedBy endRecord do
          ofExcept (r.finish (← foldFields (r.readField room) r.blank))
      else
        closedBy endList do
          ofExcept (r.finish (← readItems room (nameWithSize name r.fields.length) 0 r.fields
            r.blank))
  else wrong ("struct " ++ name)

end Record

end Retrace.Json
