import Retrace.Json.Record
import Retrace.Trace.Backtrace
import Retrace.Trace.Step
import Retrace.Value.Read
/-!
Reading the records of lines, frames and steps.
-/
namespace Retrace

open Json

/-- The number of a line, or the word for none. -/
def Line.ofDocument (d : Document) : Option Line :=
  match d with
  | .whole n => if 0 ≤ n ∧ n ≤ 0xFFFFFFFF then some (some n.toNat) else none
  | d => (d.choice [(Line.unknown, none)]).toOption

def Line.read : Decoder Line := fun room => do
  match Line.ofDocument (← Document.read room) with
  | some l => return l
  | none => Reader.refuse (.noVariant "SourceLine")

def Frame.layout : Record Frame :=
  (Record.required "functionName" Decoder.text).map Frame.mk
    |>.apply (Record.required "parameters" Slots.read)
    |>.apply (Record.required "localVariables" Slots.read)
    |>.apply (Record.required "lineNumber" Line.read)

def Frame.read : Decoder Frame := Frame.layout.read "StackFrame"

def Step.layout : Record Step :=
  (Record.required "sequence" (Decoder.word64 "u64")).map Step.mk
    |>.apply (Record.required "function" Decoder.text)
    |>.apply (Record.required "variables" Bindings.read)
    |>.apply (Record.required "callStack" (Decoder.list Frame.read))
    |>.apply (Record.required "sourceLine" Line.read)
    |>.apply (Record.required "action" Decoder.text)
    |>.apply (Record.required "details" Decoder.text)

def Step.read : Decoder Step := Step.layout.read "TraceStep"

namespace RawFrame

def toJson (f : RawFrame) : Json :=
  .record [("symbol", .text f.symbol), ("file", .ofOption .text f.file),
    ("line", .ofOption .nat f.line)]

def layout : Record RawFrame :=
  (Record.required "symbol" Decoder.text).map RawFrame.mk
    |>.apply (Record.possible "file" Decoder.text)
    |>.apply (Record.possible "line" Decoder.word32)

def read : Decoder RawFrame := layout.read "RawFrame"

end RawFrame

end Retrace
