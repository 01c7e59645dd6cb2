import Retrace.Json.Document
import Retrace.Value
/-!
Reading captured values. The kind of a value may stand before or after what it holds. When it stands
after, what the value holds is first read as a document and then looked at again.
-/
namespace Retrace.Value

open Json Number

/-- The kinds of values. -/
inductive Kind where
  | text
  | int
  | float
  | truth
  | char
  | null
  | list
  | object
  deriving DecidableEq, Repr

def kinds : List (String × Kind) :=
  [("str", .text), ("int", .int), ("float", .float), ("bool", .truth), ("char", .char),
    ("null", .null), ("list", .list), ("object", .object)]

/-- The name that messages give to the type of values. -/
def typeName : String := "adjacently tagged enum TraceValue"

/-- What messages want in place of something that a null holds. -/
def nullName : String := "unit variant TraceValue::Null"

/-- The fields of a value. -/
inductive Mark where
  | kind
  | content
  deriving DecidableEq, Repr

namespace Mark

/-- The name of a field. -/
def name : Mark → String
  | kind => "type"
  | content => "value"

/-- The field with a name. -/
def ofName? (s : String) : Option Mark :=
  if s = kind.name then some kind else if s = content.name then some content else none

end Mark

/-- The value of a kind that holds nothing. -/
def bare : Kind → Except Cause Value
  | .null => .ok null
  | _ => .error (.missingField Mark.content.name)

/-! ### Values in documents -/

/-- The text that a document is. -/
def textIn : Document → Except Cause String
  | .text s => .ok s
  | d => .error (.wrongType d.found "a string")

/-- The value of a kind that holds a document; `items` are the values in it if it is a list. -/
def holding (kind : Kind) (d : Document) (items : Except Cause (List Value)) :
    Except Cause Value :=
  let wrong (wanted : String) : Except Cause Value := .error (.wrongType d.found wanted)
  match kind, d with
  | .text, d => (textIn d).map text
  | .object, d => (textIn d).map object
  | .int, .whole n => (Decoder.wholeOf "i64" leastInt greatestInt (.whole n)).map int
  | .int, _ => wrong "i64"
  | .float, .whole n => .ok (float (Decoder.floatOf (.whole n)))
  | .float, .float x => .ok (float x)
  | .float, _ => wrong "f64"
  | .truth, .truth b => .ok (truth b)
  | .truth, _ => wrong "a boolean"
  | .char, .text s => (Decoder.charOf s).map char
  | .char, _ => wrong "a character"
  | .null, .null => .ok null
  | .null, _ => wrong nullName
  | .list, _ => items.map list

/-- A document with the values in it, for when it turns out to be what a list holds. -/
abbrev Held := Document × Except Cause (List Value)

/-- Finds no field a second time. -/
def noMore (a : Value) : List (Mark × Held) → Except Cause Value
  | [] => .ok a
  | (m, _) :: _ => .error (.repeatedField m.name)

/-- The value that the fields of a record make. -/
def ofMarks : List (Mark × Held) → Except Cause Value
  | [] => .error (.missingField Mark.kind.name)
  | (.kind, k) :: rest => do
    let kind ← k.1.choice kinds
    match rest with
    | [] => bare kind
    | (.kind, _) :: _ => throw (.repeatedField Mark.kind.name)
    | (.content, c) :: rest => noMore (← holding kind c.1 c.2) rest
  | (.content, c) :: rest => do
    match rest with
    | [] => throw (.missingField Mark.kind.name)
    | (.content, _) :: _ => throw (.repeatedField Mark.content.name)
    | (.kind, k) :: rest =>
      let kind ← k.1.choice kinds
      noMore (← holding kind c.1 c.2) rest

/-- The value that a list of a kind and what it holds makes. -/
def ofPair : List Held → Except Cause Value
  | [] => .error (.wrongLength 0 typeName)
  | [k] => do
    let _ ← k.1.choice kinds
    throw (.wrongLength 1 typeName)
  | k :: c :: rest => do
    let kind ← k.1.choice kinds
    let v ← holding kind c.1 c.2
    if rest.isEmpty then return v
    else throw (.wrongLength (2 + rest.length) "2 elements in sequence")

mutual
/-- The value that a document is. -/
def ofDocument : Document → Except Cause Value
  | .record fields => ofMarks (marksOf fields)
  | .list items => ofPair (heldOf items)
  | d => .error (.wrongType d.found typeName)

/-- The values in a document that is a list. -/
def itemsOf : Document → Except Cause (List Value)
  | .list items => valuesOf items
  | d => .error (.wrongType d.found "a sequence")

/-- The values that documents are, up to the first that is none. -/
def valuesOf : List Document → Except Cause (List Value)
  | [] => .ok []
  | d :: ds => do
    let v ← ofDocument d
    return v :: (← valuesOf ds)

/-- Documents with the values in them. -/
def heldOf : List Document → List Held
  | [] => []
  | d :: ds => (d, itemsOf d) :: heldOf ds

/-- The fields that matter, with the values in them. -/
def marksOf : List (String × Document) → List (Mark × Held)
  | [] => []
  | (name, d) :: fields =>
    match Mark.ofName? name with
    | some m => (m, d, itemsOf d) :: marksOf fields
    | none => marksOf fields
end

/-! ### Values in a text -/

/-- Refuses everything but null. -/
def onlyNull (room : Nat) : Reader Value := do
  let refused (f : Found) : Reader Value := Reader.refuse (.wrongType f nullName)
  let inside (p : Reader Value) : Reader Value :=
    if room = 0 then Reader.tooDeep else do Reader.skip; p
  match ← Reader.next with
  | some p =>
    if p = some 'n' then do Reader.word "null".toList; return null
    else if p = some '[' then inside (Reader.closedBy Reader.endList (refused .list))
    else if p = opening then inside (Reader.closedBy Reader.endRecord (refused .record))
    else Reader.wrong nullName
  | none => Reader.wrong nullName

/-- Reads what a value of a kind holds, the items of a list with a reader of lists. -/
def contentOf (items : Reader (List Value)) (room : Nat) : Kind → Reader Value
  | .text => return text (← Decoder.text room)
  | .object => return object (← Decoder.text room)
  | .int => return int (← Decoder.whole "i64" leastInt greatestInt room)
  | .float => return float (← Decoder.float room)
  | .truth => return truth (← Decoder.truth room)
  | .char => return char (← Decoder.char room)
  | .null => onlyNull room
  | .list => return list (← items)

/-- Goes on to the next field that matters. -/
def nextMarkFrom : Nat → Bool → Reader (Option Mark)
  | 0, _ => return none
  | fuel + 1, isFirst => do
    match ← Reader.fieldName isFirst with
    | none => return none
    | some name =>
      match Mark.ofName? name with
      | some m => return some m
      | none => do
        Reader.fieldValue name skipValue
        nextMarkFrom fuel false

/-- Goes on to the next field that matters, over fields that do not. -/
def nextMark (isFirst : Bool) : Reader (Option Mark) := fun s =>
  nextMarkFrom (s.length + 1) isFirst s

/-- Reads the rest of a record, in which no field may stand again. -/
def endMarks (v : Value) : Reader Value := do
  match ← nextMark false with
  | none => return v
  | some m => Reader.refuse (.repeatedField m.name)

/-- Reads the fields of a value. -/
def fields (items : Reader (List Value)) (room : Nat) : Reader Value := do
  let kindField : Reader Kind := do Reader.colon; Decoder.choice kinds room
  match ← nextMark true with
  | none => Reader.refuse (.missingField Mark.kind.name)
  | some .kind =>
    let kind ← kindField
    match ← nextMark false with
    | none => Reader.ofExcept (bare kind)
    | some .kind => Reader.refuse (.repeatedField Mark.kind.name)
    | some .content => do
      Reader.colon
      endMarks (← contentOf items room kind)
  | some .content =>
    Reader.colon
    let d ← Document.read room
    match ← nextMark false with
    | none => Reader.refuse (.missingField Mark.kind.name)
    | some .content => Reader.refuse (.repeatedField Mark.content.name)
    | some .kind =>
      let kind ← kindField
      endMarks (← Reader.ofExcept (holding kind d (itemsOf d)))

/-- Reads a value as a list of its kind and what it holds. -/
def pairItems (items : Reader (List Value)) (room : Nat) : Reader Value := do
  match ← Reader.nextItem 0 (Decoder.choice kinds room) with
  | none => Reader.refuse (.wrongLength 0 typeName)
  | some kind =>
    match ← Reader.nextItem 1 (contentOf items room kind) with
    | none => Reader.refuse (.wrongLength 1 typeName)
    | some v => return v

/-- Reads a value where it may be entered, with `room` for what is inside. -/
def readInside (items : Reader (List Value)) (room : Nat) : Reader Value := do
  let marked ← Reader.next
  if marked = some opening then do
    Reader.skip
    Reader.closedBy Reader.endRecord (fields items room)
  else if marked = some (some '[') then do
    Reader.skip
    Reader.closedBy Reader.endList (pairItems items room)
  else Reader.wrong typeName

/-- Reads a value. -/
def read : Decoder Value
  | 0 => Reader.shut [some '[', opening] typeName
  | 1 => readInside (Reader.shut [some '['] "a sequence") 0
  | room + 2 => readInside (Reader.listOf "a sequence" (read room)) (room + 1)

end Retrace.Value

namespace Retrace

/-- Reads variables. -/
def Bindings.read : Json.Decoder Bindings := Json.Decoder.table Value.read

/-- Reads slots. -/
def Slots.read : Json.Decoder Slots := Json.Decoder.table (Json.Decoder.option Value.read)

end Retrace
