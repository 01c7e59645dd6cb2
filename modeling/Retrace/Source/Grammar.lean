import Retrace.Source.Parser
/-!
The readers of the grammar that call each other. Each module of the grammar is written against a
`Grammar`, and `Source/File` closes the circle with a bound on the nesting.
-/
namespace Retrace.Source

/-- What follows the name of a segment: nothing, angle brackets with nothing in them, generic
arguments in angle brackets, or in parentheses. -/
inductive Arguments where
  | none
  | empty
  | angled
  | parenthesized
  deriving DecidableEq, Repr

namespace Arguments

/-- Whether there are no arguments, with brackets or without. -/
def isEmpty : Arguments → Bool
  | none | empty => true
  | angled | parenthesized => false

end Arguments

structure Segment where
  name : String
  arguments : Arguments

/-- A path: whether a type qualifies it, whether it starts at the root, its segments, and the nodes
written in its arguments. -/
structure Path where
  qualified : Bool
  rooted : Bool
  segments : List Segment
  nodes : List Node

namespace Path

/-- The name of the last segment. -/
def last (p : Path) : String := (p.segments.getLast?.map Segment.name).getD ""

def lastArguments (p : Path) : Arguments :=
  (p.segments.getLast?.map Segment.arguments).getD .none

/-- Whether no segment has arguments, not even in empty brackets. -/
def isPlain (p : Path) : Bool := p.segments.all fun s => s.arguments == .none

/-- The identifier that the whole path is. -/
def whole? (p : Path) : Option String :=
  match p.qualified, p.rooted, p.segments with
  | false, false, [s] => if s.arguments = .none then some s.name else none
  | _, _, _ => none

end Path

/-- What the readers ask about a type. -/
inductive TypeForm where
  | path (path : Path)
  | bounds (single : Bool)
  | parenthesized
  | other

/-- A type, with the nodes written in it. -/
structure TypeShape where
  form : TypeForm
  nodes : List Node

/-- What the readers ask about a pattern: whether it is an identifier, the rest of a list, or a
range that lacks a bound. -/
inductive PatternForm where
  | word (name : String)
  | rest
  | openRange (limits : Place)
  | other

/-- A pattern, with the nodes written in it. -/
structure Pattern where
  form : PatternForm
  nodes : List Node

/-- How tightly an operation binds, from the loosest on. -/
inductive Precedence where
  | least
  | assign
  | range
  | or
  | and
  | compare
  | bitOr
  | bitXor
  | bitAnd
  | shift
  | sum
  | product
  | cast
  deriving DecidableEq, Repr

namespace Precedence

def rank (p : Precedence) : Nat := p.ctorIdx

end Precedence

/-- What a bound may be besides a lifetime or a trait. -/
structure BoundRules where
  capturing : Bool
  constant : Bool

/-- The readers that the parts of the grammar call. `structs` says whether a path may be followed
by the fields of a structure, and `plus` whether further bounds may follow a type. -/
structure Grammar where
  expression (structs : Bool) : Parser Node
  early : Parser Node
  unary (structs : Bool) : Parser Node
  climb (structs : Bool) (base : Precedence) (left : Node) : Parser Node
  type (plus : Bool) : Parser TypeShape
  bound (rules : BoundRules) : Parser (Bool × List Node)
  pattern : Parser Pattern
  statements : Parser (List Node)
  item : Parser Node
  namedFields : Parser (List Node)
  useTree (roots : Bool) : Parser Bool

end Retrace.Source
