import Retrace.Json.Skip
import Retrace.Table
/-!
Readers of values of a known type. They read a document from the front to the end, so that of two
faults the one that comes first in the text is reported. A reader is told how many more lists and
records it may enter.
-/
namespace Retrace.Json

open Retrace.Text Retrace.Number

/-- How many lists and records a document may nest. -/
def roomLimit : Nat := 127

/-- A reader of a value, by the number of lists and records that it may enter. -/
abbrev Decoder (α : Type) := Nat → Reader α

variable {α β : Type}

namespace Reader

/-- Reports a value of the wrong type. A scalar is read first. -/
def wrong (wanted : String) : Reader α := do
  match ← next with
  | none => fail (.ended .value) 0
  | some p =>
    let report (found : Found) : Reader α := fail (.wrongType found wanted) 0
    if p = some 'n' then do word "null".toList; report .null
    else if p = some 't' then do word "true".toList; report (.truth true)
    else if p = some 'f' then do word "false".toList; report (.truth false)
    else if p = some '"' then do skip; report (.text (← text))
    else if p = some '-' || (Numeral.digit? p).isSome then do report (← Numeral.read).found
    else if p = some '[' then report .list
    else if p = opening then report .record
    else fail .noValue 1

/-- Refuses to enter a list or a record. -/
def tooDeep : Reader α := fail .tooDeep 1

/-- Reads the inside of a list or record and then its end. When the inside is refused, the place of
the fault is where the end was looked for. -/
def closedBy (finish : Reader Unit) (inside : Reader α) : Reader α := fun s =>
  match inside s with
  | .ok (a, r) => (finish r).map fun (_, r) => (a, r)
  | .error f =>
    if f.beyond.isSome then .error f
    else match finish f.rest with
      | .ok (_, r) => .error { f with rest := r, beyond := some 0 }
      | .error g => .error { f with rest := g.rest, beyond := some 0 }

def endList : Reader Unit := do
  match ← next with
  | none => fail (.ended .list) 0
  | some p =>
    if p = some ']' then skip
    else if p = some ',' then do
      skip
      fail (if (← next) = some (some ']') then .trailingComma else .trailingText) 1
    else fail .trailingText 1

def endRecord : Reader Unit := do
  match ← next with
  | none => fail (.ended .record) 0
  | some p =>
    if p = closing then skip
    else fail (if p = some ',' then .trailingComma else .trailingText) 1

def hasItem (isFirst : Bool) : Reader Bool := do
  match ← next with
  | none => fail (.ended .list) 0
  | some p =>
    if p = some ']' then return false
    else if isFirst then return true
    else if p = some ',' then do
      skip
      match ← next with
      | none => fail (.ended .value) 0
      | some p => if p = some ']' then fail .trailingComma 1 else return true
    else fail (.noComma .list) 1

/-- The name of the next field of a record, if there is one. -/
def fieldName (isFirst : Bool) : Reader (Option String) := do
  match ← next with
  | none => fail (.ended .record) 0
  | some p =>
    if p = closing then return none
    else if isFirst then
      if p = some '"' then do skip; return some (← text) else fail .keyNoText 1
    else if p = some ',' then do
      skip
      match ← next with
      | none => fail (.ended .value) 0
      | some p =>
        if p = some '"' then do skip; return some (← text)
        else if p = closing then fail .trailingComma 1
        else fail .keyNoText 1
    else fail (.noComma .record) 1

def colon : Reader Unit := do
  match ← next with
  | none => fail (.ended .record) 0
  | some p => if p = some ':' then skip else fail .noColon 1

/-- The item of a list after `n` others, if there is one. -/
def nextItem (n : Nat) (item : Reader α) : Reader (Option α) := within (.item n) do
  if ← hasItem (n == 0) then return some (← item) else return none

/-- The items of a list up to its end, those before in reverse. -/
def itemsFrom (item : Reader α) : Nat → List α → Reader (List α)
  | 0, seen => return seen.reverse
  | fuel + 1, seen => do
    match ← nextItem seen.length item with
    | some a => itemsFrom item fuel (a :: seen)
    | none => return seen.reverse

def items (item : Reader α) : Reader (List α) := fun s => itemsFrom item (s.length + 1) [] s

/-- Goes through the fields of a record up to its end. -/
def foldFieldsFrom (field : α → String → Reader α) : Nat → Bool → α → Reader α
  | 0, _, a => return a
  | fuel + 1, isFirst, a => do
    match ← fieldName isFirst with
    | none => return a
    | some name =>
      let a ← field a name
      foldFieldsFrom field fuel false a

/-- Goes through the fields of a record up to its end. The function is called right after the name
of a field. -/
def foldFields (field : α → String → Reader α) (a : α) : Reader α := fun s =>
  foldFieldsFrom field (s.length + 1) true a s

def fieldValue (name : String) (value : Reader α) : Reader α :=
  within (.field name) (do colon; value)

/-- Reads a list of any items where a list is wanted. -/
def listOf (wanted : String) (item : Reader α) : Reader (List α) := do
  if (← next) = some (some '[') then do skip; closedBy endList (items item)
  else wrong wanted

/-- Reads where no list and no record may be entered. -/
def shut (marks : List Piece) (wanted : String) : Reader α := do
  match ← next with
  | some p => if p ∈ marks then tooDeep else wrong wanted
  | none => wrong wanted

end Reader

namespace Decoder

open Reader

def textAs (wanted : String) : Decoder String := fun _ => do
  if (← next) = some (some '"') then do skip; Reader.text else wrong wanted

def text : Decoder String := textAs "a string"

def numeral (wanted : String) : Decoder Numeral := fun _ => do
  match ← next with
  | some p =>
    if p = some '-' || (Numeral.digit? p).isSome then Numeral.read else wrong wanted
  | none => wrong wanted

/-- A whole number between bounds, out of a number. -/
def wholeOf (wanted : String) (lo hi : Int) : Numeral → Except Cause Int
  | .whole n => if lo ≤ n ∧ n ≤ hi then .ok n else .error (.wrongValue (.whole n) wanted)
  | .float x => .error (.wrongType (.float x) wanted)

/-- A whole number between bounds. -/
def whole (wanted : String) (lo hi : Int) : Decoder Int := fun room => settled do
  ofExcept (wholeOf wanted lo hi (← numeral wanted room))

/-- A natural number of thirty-two bits. -/
def word32 : Decoder Nat := fun room =>
  return (← whole "u32" 0 0xFFFFFFFF room).toNat

/-- A natural number of sixty-four bits, by the name that messages give to its type. -/
def word64 (wanted : String) : Decoder Nat := fun room =>
  return (← whole wanted 0 0xFFFFFFFFFFFFFFFF room).toNat

def floatOf : Numeral → Binary
  | .whole n =>
    if n < 0 then (Binary.ofNat .double n.natAbs).negate else Binary.ofNat .double n.natAbs
  | .float x => x

def float : Decoder Binary := fun room => return floatOf (← numeral "f64" room)

def truth : Decoder Bool := fun _ => do
  match ← next with
  | some p =>
    if p = some 't' then do word "true".toList; return true
    else if p = some 'f' then do word "false".toList; return false
    else wrong "a boolean"
  | none => wrong "a boolean"

/-- The only character of a text. -/
def charOf (s : String) : Except Cause Char :=
  match s.toList with
  | [c] => .ok c
  | _ => .error (.wrongValue (.text s) "a character")

def char : Decoder Char := fun room => settled do
  ofExcept (charOf (← textAs "a character" room))

/-- A value that may be null. -/
def option (value : Decoder α) : Decoder (Option α) := fun room => do
  if (← next) = some (some 'n') then do word "null".toList; return none
  else return some (← value room)

def list (item : Decoder α) : Decoder (List α) := fun room =>
  match room with
  | 0 => shut [some '['] "a sequence"
  | room + 1 => listOf "a sequence" (item room)

def table (value : Decoder α) : Decoder (Table α) := fun room => do
  if (← next) = some opening then
    match room with
    | 0 => tooDeep
    | room + 1 => do
      skip
      closedBy endRecord (foldFields (fun t name => do
        return t.insert name (← fieldValue name (value room))) Table.empty)
  else wrong "a map"

/-- What a name stands for, out of a list of choices. -/
def choiceOf (choices : List (String × α)) (name : String) : Except Cause α :=
  match choices.lookup name with
  | some a => .ok a
  | none => .error (.unknownVariant name (choices.map (·.1)))

def choiceName (choices : List (String × α)) : Reader α := settled do
  ofExcept (choiceOf choices (← textAs "variant identifier" 0))

/-- Null. -/
def unit : Reader Unit := do
  if (← next) = some (some 'n') then word "null".toList else wrong "unit"

/-- A choice: its name, or a record that has null under that name. -/
def choice (choices : List (String × α)) : Decoder α := fun room => do
  match ← next with
  | none => fail (.ended .value) 0
  | some p =>
    if p = some '"' then choiceName choices
    else if p = opening then
      if room = 0 then tooDeep
      else do
        skip
        let a ← choiceName choices
        colon
        unit
        match ← next with
        | none => fail (.ended .record) 0
        | some p => if p = closing then do skip; return a else fail .noValue 0
    else fail .noValue 1

/-- Reads a whole document. -/
def run (value : Decoder α) (document : Input) : Except Fault α := do
  let (a, r) ← value roomLimit document
  match r.dropWhile isGap with
  | [] => return a
  | r => .error ⟨.trailingText, r, some 1, []⟩

/-- Reads a whole text, with the wording of what is wrong with it. -/
def runText (value : Decoder α) (s : List Char) : Except String α :=
  (value.run (s.map some)).mapError (Fault.message (s.map some))

end Decoder

end Retrace.Json
