import Retrace.Run.Exit
/-!
What a run of the compiler says. Its messages come one record a line; lines that are no message are
left out.
-/
namespace Retrace

open Json Text

/-- A place that a message points at. -/
structure MessageSpan where
  line : Nat
  column : Nat
  isPrimary : Bool
  deriving DecidableEq, Repr

/-- A message as the compiler writes it. -/
structure CompilerMessage where
  type : Option String
  message : String
  level : String
  spans : List MessageSpan
  rendered : Option String
  deriving DecidableEq, Repr

def MessageSpan.read : Decoder MessageSpan :=
  ((Record.required "line_start" (Decoder.word64 "usize")).map MessageSpan.mk
    |>.apply (Record.required "column_start" (Decoder.word64 "usize"))
    |>.apply (Record.withDefault "is_primary" Decoder.truth false)).read "MessageSpan"

namespace CompilerMessage

def read : Decoder CompilerMessage :=
  ((Record.withDefault "$message_type" (Decoder.option Decoder.text) none).map CompilerMessage.mk
    |>.apply (Record.required "message" Decoder.text)
    |>.apply (Record.required "level" Decoder.text)
    |>.apply (Record.withDefault "spans" (Decoder.list MessageSpan.read) [])
    |>.apply (Record.possible "rendered" Decoder.text)).read "CompilerMessage"

def isDiagnostic (m : CompilerMessage) : Bool := m.type.all (· == "diagnostic")

/-- The place of a message: the first primary one, or else the first one. -/
def place? (m : CompilerMessage) : Option MessageSpan :=
  (m.spans.find? MessageSpan.isPrimary).or m.spans.head?

def diagnostic (m : CompilerMessage) : Diagnostic :=
  { level := m.level, message := m.message
    line := m.place?.map MessageSpan.line
    column := m.place?.map MessageSpan.column
    rendered := m.rendered.getD (m.level ++ ": " ++ m.message) }

def ofLine? (line : List Char) : Option CompilerMessage :=
  if (trimStart line).head? = some (Char.ofNat 123) then (read.runText line).toOption else none

end CompilerMessage

def diagnostics (stderr : List Char) : List Diagnostic :=
  (((lines stderr).filterMap CompilerMessage.ofLine?).filter CompilerMessage.isDiagnostic).map
    CompilerMessage.diagnostic

/-- What a run of the compiler leaves: its end and what it wrote about its work. -/
structure CompilerOutput where
  exit : Exit
  stderr : List Char

namespace CompilerOutput

def diagnostics (o : CompilerOutput) : List Diagnostic := Retrace.diagnostics o.stderr

def failed (o : CompilerOutput) : Bool :=
  !o.exit.isSuccess || o.diagnostics.any Diagnostic.isError

/-- The failure of a build of the support library, if the run failed or left no library. -/
def supportFailure? (o : CompilerOutput) (library : String) (built : Bool) : Option RunFailure :=
  if o.failed || !built then
    some ⟨.toolchain, "support crate " ++ ticked library ++ " failed to build",
      (BuildFailure.mk o.diagnostics).display⟩
  else none

/-- A diagnostic for a run that failed without one: what it wrote, or else how it ended. -/
def fallback (o : CompilerOutput) : Diagnostic :=
  let text := String.ofList (trim o.stderr)
  let message := if text.isEmpty then "rustc exited with " ++ o.exit.message else text
  ⟨"error", message, none, none, message⟩

/-- The failure of a build of a program, if the run failed. -/
def programFailure? (o : CompilerOutput) : Option BuildFailure :=
  if o.failed then
    some ⟨if o.diagnostics.isEmpty then [o.fallback] else o.diagnostics⟩
  else none

end CompilerOutput

end Retrace
