import Retrace.Run.Failure
import Retrace.Trace.Event
/-!
Replaying the events of a run. Each line of the text is an event, lines of blanks apart; the first
line that is none ends the replay, and the steps before it stay.
-/
namespace Retrace

open Json Text

/-- A line that is no event. -/
def malformedLine (number : Nat) (why : String) (line : List Char) : RunFailure :=
  ⟨.protocol, "malformed event on line " ++ toString number ++ ": " ++ why, String.ofList line⟩

namespace Collector

/-- Records the events of lines, of which the first has a number. -/
def ingestLines (c : Collector) (number : Nat) : List (List Char) → Collector × Option RunFailure
  | [] => (c, none)
  | line :: rest =>
    if blank line then ingestLines c (number + 1) rest
    else match Event.read.runText line with
      | .ok e => ingestLines (c.recordEvent e) (number + 1) rest
      | .error why => (c, some (malformedLine number why line))

def ingest (c : Collector) (text : List Char) : Collector × Option RunFailure :=
  c.ingestLines 1 (lines text)

end Collector

end Retrace
