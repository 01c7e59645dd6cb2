import Retrace.Json.Basic
import Retrace.Text.Bytes
import Retrace.Text.Described
/-!
Faults of reading. A fault has a cause and, once it is known, the place in the document where reading
stopped.
-/
namespace Retrace.Json

open Retrace.Text Retrace.Number

/-- What is left of a document to be read. -/
abbrev Input := List Piece

/-- What stands in a document where something else is wanted. -/
inductive Found where
  | null
  | truth (b : Bool)
  | whole (n : Int)
  | float (x : Binary)
  | text (s : String)
  | list
  | record
  deriving DecidableEq, Repr

/-- What a document may end in the middle of. -/
inductive Part where
  | value
  | list
  | record
  | text
  deriving DecidableEq, Repr

/-- Why a document cannot be read. The first causes are breaches of the notation; those from
`wrongType` on are about what the document says. -/
inductive Cause where
  | ended (inside : Part)
  | noColon
  | noComma (inside : Part)
  | noWord
  | noValue
  | badEscape
  | badNumber
  | outOfRange
  | badCharacter
  | controlCharacter
  | keyNoText
  | loneHalf
  | missingHalf
  | trailingComma
  | trailingText
  | tooDeep
  | wrongType (found : Found) (wanted : String)
  | wrongValue (found : Found) (wanted : String)
  | wrongLength (length : Nat) (wanted : String)
  | unknownVariant (name : String) (known : List String)
  | missingField (name : String)
  | repeatedField (name : String)
  | noVariant (type : String)
  deriving DecidableEq, Repr

/-- A text in backquotes. -/
def ticked (s : String) : String := "`" ++ s ++ "`"

def Found.message : Found → String
  | null => "null"
  | truth b => "boolean " ++ ticked (if b then "true" else "false")
  | whole n => "integer " ++ ticked (toString n)
  | float x => "floating point " ++ ticked (Style.record.render .double x)
  | text s => "string " ++ String.ofList (describe s.toList)
  | list => "sequence"
  | record => "map"

def oneOf : List String → String
  | [] => "there are no variants"
  | [a] => "expected " ++ ticked a
  | [a, b] => "expected " ++ ticked a ++ " or " ++ ticked b
  | names => "expected one of " ++ String.intercalate ", " (names.map ticked)

namespace Cause

def message : Cause → String
  | ended .value => "EOF while parsing a value"
  | ended .list => "EOF while parsing a list"
  | ended .record => "EOF while parsing an object"
  | ended .text => "EOF while parsing a string"
  | noColon => "expected `:`"
  | noComma .list => "expected `,` or `]`"
  | noComma _ => "expected `,` or `" ++ closeBrace ++ "`"
  | noWord => "expected ident"
  | noValue => "expected value"
  | badEscape => "invalid escape"
  | badNumber => "invalid number"
  | outOfRange => "number out of range"
  | badCharacter => "invalid unicode code point"
  | controlCharacter => "control character (\\u0000-\\u001F) found while parsing a string"
  | keyNoText => "key must be a string"
  | loneHalf => "lone leading surrogate in hex escape"
  | missingHalf => "unexpected end of hex escape"
  | trailingComma => "trailing comma"
  | trailingText => "trailing characters"
  | tooDeep => "recursion limit exceeded"
  | wrongType found wanted => "invalid type: " ++ found.message ++ ", expected " ++ wanted
  | wrongValue found wanted => "invalid value: " ++ found.message ++ ", expected " ++ wanted
  | wrongLength length wanted => "invalid length " ++ toString length ++ ", expected " ++ wanted
  | unknownVariant name known => "unknown variant " ++ ticked name ++ ", " ++ oneOf known
  | missingField name => "missing field " ++ ticked name
  | repeatedField name => "duplicate field " ++ ticked name
  | noVariant type => "data did not match any variant of untagged enum " ++ type

/-- Whether the cause is about what a document says and not about its notation. -/
def isAboutContent : Cause → Bool
  | wrongType .. | wrongValue .. | wrongLength .. | unknownVariant .. | missingField _
  | repeatedField _ | noVariant _ => true
  | _ => false

end Cause

/-- A step from a document to a part of it. -/
inductive Segment where
  | field (name : String)
  | item (index : Nat)
  deriving DecidableEq, Repr

/-- A fault of reading: its cause, the text that was left, and how many bytes of that text the place
of the fault lies further on. A fault without such a number has no place yet. The path leads to the
part that was being read. -/
structure Fault where
  cause : Cause
  rest : Input
  beyond : Option Nat
  path : List Segment
  deriving DecidableEq, Repr

/-- A place in a document: a line, counted from one, and the number of bytes before the place in
that line. -/
structure Spot where
  line : Nat
  column : Nat
  deriving DecidableEq, Repr

/-- The place that lies `n` bytes behind a place. -/
def Spot.advance (at_ : Spot) : List Piece → Nat → Spot
  | [], _ => at_
  | p :: ps, n =>
    if n = 0 then at_
    else if p = some '\n' then advance ⟨at_.line + 1, 0⟩ ps (n - 1)
    else advance ⟨at_.line, at_.column + min p.size n⟩ ps (n - p.size)

namespace Fault

/-- Gives a fault without a place the place where reading stands. -/
def settle (f : Fault) : Fault := { f with beyond := f.beyond.or (some 0) }

/-- The place of a fault in the document it arose in. -/
def spot? (document : Input) (f : Fault) : Option Spot :=
  f.beyond.map fun n =>
    Spot.advance ⟨1, 0⟩ document (byteCount document - byteCount f.rest + n)

def message (document : Input) (f : Fault) : String :=
  f.cause.message ++
    match f.spot? document with
    | some s => " at line " ++ toString s.line ++ " column " ++ toString s.column
    | none => ""

def pathText : List Segment → String
  | [] => ""
  | .field name :: path => "." ++ name ++ pathText path
  | .item i :: path => "[" ++ toString i ++ "]" ++ pathText path

/-- The wording of a fault with the path to the part at fault, unless that is the whole. -/
def messageWithPath (document : Input) (f : Fault) : String :=
  match f.path with
  | [] => f.message document
  | .field name :: path => name ++ pathText path ++ ": " ++ f.message document
  | path => pathText path ++ ": " ++ f.message document

end Fault

end Retrace.Json
