import Retrace.Json.Record
import Retrace.Trace.Collector
import Retrace.Value.Read
/-!
Events: what a traced program reports about one instrumentation call.
-/
namespace Retrace

open Json

/-- An event. Among its values names and values take turns. -/
structure Event where
  action : String
  details : String
  values : List Value
  function : Option String
  line : Option Nat
  backtrace : Option String

namespace Event

def layout : Record Event :=
  (Record.required "action" Decoder.text).map Event.mk
    |>.apply (Record.withDefault "details" Decoder.text "")
    |>.apply (Record.withDefault "variables" (Decoder.list Value.read) [])
    |>.apply (Record.possible "function" Decoder.text)
    |>.apply (Record.possible "line" Decoder.word32)
    |>.apply (Record.possible "backtrace" Decoder.text)

def read : Decoder Event := layout.read "Event"

/-- What an event tells about the surroundings of its call. A backtrace without frames tells
nothing. -/
def context (e : Event) : CallContext :=
  { chain := (e.backtrace.map Backtrace.parse).filter fun frames => !frames.isEmpty
    site := e.function.map fun f => .ofSymbol f e.line }

end Event

def Collector.recordEvent (c : Collector) (e : Event) : Collector :=
  c.record e.action e.details (Value.bindings e.values) e.context

end Retrace
