import Retrace.Value
/-!
The record of one step of a traced run, and of the frames of its call stack.
-/
namespace Retrace

/-- A line of the source, if it is known. -/
abbrev Line := Option Nat

namespace Line

/-- The word for a line that is not known. -/
def unknown : String := "unknown"

/-- The record of a line: its number, or a word for none. -/
def toJson : Line → Json
  | some n => .nat n
  | none => .text unknown

end Line

/-- A frame of a call stack. A parameter or a variable without a value is known by name only. -/
structure Frame where
  function : String
  parameters : Slots
  locals : Slots
  line : Line

namespace Frame

/-- A frame of which the parameters are known by name only. -/
def declared (function : String) (params : List String) (line : Line) : Frame :=
  ⟨function, .ofRows (params.map fun p => (p, none)), .empty, line⟩

def toJson (f : Frame) : Json :=
  .record [("functionName", .text f.function), ("parameters", Slots.toJson f.parameters),
    ("localVariables", Slots.toJson f.locals), ("lineNumber", Line.toJson f.line)]

end Frame

/-- A step of a traced run. The stack has the oldest frame first. -/
structure Step where
  sequence : Nat
  function : String
  bindings : Bindings
  stack : List Frame
  line : Line
  action : String
  details : String

namespace Step

def toJson (s : Step) : Json :=
  .record [("sequence", .nat s.sequence), ("function", .text s.function),
    ("variables", Bindings.toJson s.bindings), ("callStack", .list (s.stack.map Frame.toJson)),
    ("sourceLine", Line.toJson s.line), ("action", .text s.action), ("details", .text s.details)]

end Step

end Retrace
