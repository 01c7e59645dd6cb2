import Retrace.Json.Decode
/-!
Documents that are read before it is known what they should say. The fields of a record keep their
order, and a name may stand there more than once.
-/
namespace Retrace.Json

open Retrace.Number

/-- A document that was read. -/
inductive Document where
  | null
  | truth (b : Bool)
  | whole (n : Int)
  | float (x : Binary)
  | text (s : String)
  | list (items : List Document)
  | record (fields : List (String × Document))
  deriving Inhabited

namespace Document

open Reader

/-- What a document is when something else is wanted. -/
def found : Document → Found
  | null => .null
  | truth b => .truth b
  | whole n => .whole n
  | float x => .float x
  | text s => .text s
  | list _ => .list
  | record _ => .record

def ofNumeral : Numeral → Document
  | .whole n => whole n
  | .float x => float x

/-- Reads a document, lists and records with the reader of what is in them. -/
def readWith (inside : Option (Reader Document)) : Reader Document := do
  match ← next with
  | none => fail (.ended .value) 0
  | some p =>
    if p = some 'n' then do word "null".toList; return null
    else if p = some 't' then do word "true".toList; return truth true
    else if p = some 'f' then do word "false".toList; return truth false
    else if p = some '"' then do skip; return text (← Reader.text)
    else if p = some '-' || (Numeral.digit? p).isSome then return ofNumeral (← Numeral.read)
    else if p = some '[' || p = opening then
      match inside with
      | none => tooDeep
      | some item => do
        skip
        if p = opening then
          closedBy endRecord do
            let fields ← foldFields (fun fields name => do
              return (name, ← fieldValue name item) :: fields) []
            return record fields.reverse
        else closedBy endList do return list (← items item)
    else fail .noValue 1

def read : Decoder Document
  | 0 => readWith none
  | room + 1 => readWith (some (read room))

/-- The value under a name, the last one if there are several. -/
def field? (name : String) : Document → Option Document
  | record fields => (fields.reverse.find? fun f => f.1 == name).map (·.2)
  | _ => none

def text? : Document → Option String
  | text s => some s
  | _ => none

def nat? : Document → Option Nat
  | whole n => if 0 ≤ n then some n.toNat else none
  | _ => none

def items : Document → List Document
  | list ds => ds
  | _ => []

/-- A choice: its name, or a record that has null under that name. -/
def choice {α : Type} (choices : List (String × α)) : Document → Except Cause α
  | text s => Decoder.choiceOf choices s
  | record [(name, d)] => do
    let a ← Decoder.choiceOf choices name
    match d with
    | null | record [] => return a
    | d => throw (.wrongType d.found "unit")
  | record _ => throw (.wrongValue .record "map with a single key")
  | d => throw (.wrongType d.found "string or map")

end Document

end Retrace.Json
