import Retrace.Json.Record
import Retrace.Text.Space
/-!
What may go wrong with a traced run: the program has nothing to name the build after, it does not
compile, or it does not run to its end.
-/
namespace Retrace

open Json Text

/-- What stopped a run. -/
inductive FailureKind where
  | panic
  | exit
  | signal
  | timeout
  | io
  | protocol
  | toolchain
  deriving DecidableEq, Repr

namespace FailureKind

def name : FailureKind → String
  | panic => "panic"
  | exit => "exit"
  | signal => "signal"
  | timeout => "timeout"
  | io => "io"
  | protocol => "protocol"
  | toolchain => "toolchain"

def choices : List (String × FailureKind) :=
  [panic, exit, signal, timeout, io, protocol, toolchain].map fun k => (k.name, k)

def read : Decoder FailureKind := Decoder.choice choices

end FailureKind

/-- A run that did not come to a good end, with what the program wrote about it. -/
structure RunFailure where
  kind : FailureKind
  message : String
  stack : String
  deriving DecidableEq, Repr

namespace RunFailure

/-- The failure as it is shown to a reader. -/
def display (f : RunFailure) : String := f.kind.name ++ ": " ++ f.message

def toJson (f : RunFailure) : Json :=
  .record [("kind", .text f.kind.name), ("message", .text f.message), ("stack", .text f.stack)]

def layout : Record RunFailure :=
  (Record.required "kind" FailureKind.read).map RunFailure.mk
    |>.apply (Record.required "message" Decoder.text)
    |>.apply (Record.required "stack" Decoder.text)

def read : Decoder RunFailure := layout.read "ExecutionFailure"

end RunFailure

/-- A message of the compiler. -/
structure Diagnostic where
  level : String
  message : String
  line : Option Nat
  column : Option Nat
  rendered : String
  deriving DecidableEq, Repr

namespace Diagnostic

def isError (d : Diagnostic) : Bool := "error".toList.isPrefixOf d.level.toList

def toJson (d : Diagnostic) : Json :=
  .record [("level", .text d.level), ("message", .text d.message), ("line", .ofOption .nat d.line),
    ("column", .ofOption .nat d.column), ("rendered", .text d.rendered)]

def layout : Record Diagnostic :=
  (Record.required "level" Decoder.text).map Diagnostic.mk
    |>.apply (Record.required "message" Decoder.text)
    |>.apply (Record.possible "line" (Decoder.word64 "usize"))
    |>.apply (Record.possible "column" (Decoder.word64 "usize"))
    |>.apply (Record.required "rendered" Decoder.text)

def read : Decoder Diagnostic := layout.read "Diagnostic"

end Diagnostic

/-- A program that does not compile. -/
structure BuildFailure where
  diagnostics : List Diagnostic
  deriving DecidableEq, Repr

namespace BuildFailure

/-- A failure with a single error. -/
def single (message : String) (line column : Option Nat) : BuildFailure :=
  let rendered := "error: " ++ message ++
    match line with
    | some n => "\n --> " ++ toString n ++ ":" ++ toString (column.getD 1)
    | none => ""
  ⟨[⟨"error", message, line, column, rendered⟩]⟩

def errors (f : BuildFailure) : List Diagnostic := f.diagnostics.filter Diagnostic.isError

/-- The messages as they are shown to a reader. -/
def display (f : BuildFailure) : String :=
  String.intercalate "\n" (f.diagnostics.map fun d => String.ofList (trimEnd d.rendered.toList))

def toJson (f : BuildFailure) : Json :=
  .record [("diagnostics", .list (f.diagnostics.map Diagnostic.toJson))]

end BuildFailure

/-- Why there is no trace. -/
inductive TraceError where
  | noDeclaration
  | build (failure : BuildFailure)
  | run (failure : RunFailure)
  deriving DecidableEq, Repr

namespace TraceError

def kind : TraceError → String
  | noDeclaration => "no_declaration"
  | build _ => "compile"
  | run _ => "execution"

def message : TraceError → String
  | noDeclaration =>
    "no declaration found: the snippet needs a top-level struct, enum, trait or mod"
  | build f => "compilation failed:\n" ++ f.display
  | run f => "execution error: " ++ f.display

/-- The record of what is known about an error. -/
def detail? : TraceError → Option Json
  | noDeclaration => none
  | build f => some f.toJson
  | run f => some f.toJson

def toJson (e : TraceError) : Json :=
  .record (("kind", .text e.kind) :: (e.detail?.map fun d => ("detail", d)).toList)

end TraceError

end Retrace
