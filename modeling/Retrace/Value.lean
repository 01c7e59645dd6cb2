import Retrace.Json.Basic
import Retrace.Table
/-!
Captured values. A value is a scalar, nothing, a list, or the description of something without a
structure of its own. Integers have sixty-four bits; a larger one is described by its digits.
-/
namespace Retrace

open Number

/-- A captured value. -/
inductive Value where
  | text (s : String)
  | int (n : Int)
  | float (x : Binary)
  | truth (b : Bool)
  | char (c : Char)
  | null
  | list (items : List Value)
  | object (description : String)
  deriving Inhabited

/-- Named values in the order of an instrumentation call. -/
abbrev Bindings := Table Value

/-- Named values of which some are known by name only. -/
abbrev Slots := Table (Option Value)

namespace Value

def leastInt : Int := -0x8000000000000000

def greatestInt : Int := 0x7FFFFFFFFFFFFFFF

/-- Whether an integer has room in sixty-four bits. -/
def fits (n : Int) : Bool := leastInt ≤ n && n ≤ greatestInt

/-- The value of an integer of any size. -/
def ofInt (n : Int) : Value := if fits n then int n else object (toString n)

def text? : Value → Option String
  | text s => some s
  | _ => none

def kind : Value → String
  | text _ => "str"
  | int _ => "int"
  | float _ => "float"
  | truth _ => "bool"
  | char _ => "char"
  | null => "null"
  | list _ => "list"
  | object _ => "object"

mutual
/-- The value as it is shown to a reader. -/
def display : Value → String
  | text s => s
  | int n => toString n
  | float x => Style.plain.render .double x
  | truth b => if b then "true" else "false"
  | char c => c.toString
  | null => "null"
  | list items => "[" ++ displayItems items ++ "]"
  | object d => d

def displayItems : List Value → String
  | [] => ""
  | [v] => v.display
  | v :: vs => v.display ++ ", " ++ displayItems vs
end

/-- The name that a value gives to the value after it: its text, or else what is shown of it. -/
def name : Value → String
  | text s => s
  | v => v.display

mutual
/-- The record of a value: its kind, and what it holds. -/
def toJson : Value → Json
  | text s => .record [("type", .text "str"), ("value", .text s)]
  | int n => .record [("type", .text "int"), ("value", .int n)]
  | float x => .record [("type", .text "float"), ("value", .float x)]
  | truth b => .record [("type", .text "bool"), ("value", .truth b)]
  | char c => .record [("type", .text "char"), ("value", .text c.toString)]
  | null => .record [("type", .text "null")]
  | list items => .record [("type", .text "list"), ("value", .list (toJsons items))]
  | object d => .record [("type", .text "object"), ("value", .text d)]

def toJsons : List Value → List Json
  | [] => []
  | v :: vs => v.toJson :: toJsons vs
end

/-- The variables that a list of values names, names and values taking turns. A name without a
value is dropped. -/
def pairUp : List Value → List (String × Value)
  | k :: v :: rest => (k.name, v) :: pairUp rest
  | _ => []

/-- The bindings of a list in which names and values take turns. -/
def bindings (items : List Value) : Bindings := .ofRows (pairUp items)

end Value

namespace Bindings

def toJson (vs : Bindings) : Json := .record (vs.rows.map fun row => (row.1, row.2.toJson))

end Bindings

namespace Slots

/-- The record of slots; one without a value is null. -/
def toJson (ss : Slots) : Json :=
  .record (ss.rows.map fun row => (row.1, .ofOption Value.toJson row.2))

end Slots

end Retrace
