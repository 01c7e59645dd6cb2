import Retrace.Run.Files
import Retrace.Trace.Datum
/-!
How a traced program reports its instrumentation calls: a line of text for each, at the end of a
file.
-/
namespace Retrace

/-- An instrumentation call of a program, with the routine and the line it stands in, and the call
chain if that is noted. The data are names and values taking turns. -/
structure Call where
  action : String
  details : String
  data : List Datum
  function : String
  line : Nat
  backtrace : Option String

namespace Call

/-- The line that reports a call. -/
def report (c : Call) : String :=
  Json.openBrace ++ "\"action\":" ++ Datum.quote c.action ++ ",\"details\":" ++
    Datum.quote c.details ++ ",\"variables\":[" ++ Datum.fragments c.data ++ "],\"function\":" ++
    Datum.quote c.function ++ ",\"line\":" ++ toString c.line ++
    (match c.backtrace with
      | some b => ",\"backtrace\":" ++ Datum.quote b
      | none => "") ++
    Json.closeBrace ++ "\n"

end Call

/-- What a program that only reports calls leaves: its exit code, what it says about errors, and the
lines of its file if it has one. -/
structure Reported where
  code : Nat
  stderr : String
  lines : Option (List String)
  deriving DecidableEq, Repr

/-- Runs a program that reports some calls. The file is given by its path and by what comes of
opening it; without a file nothing is reported. It is opened at the first call. -/
def Call.reportAll (file : Option (String × Except FileError Unit)) (calls : List Call) : Reported :=
  match file, calls with
  | none, _ | _, [] => ⟨0, "", none⟩
  | some (_, .ok ()), calls => ⟨0, "", some (calls.map Call.report)⟩
  | some (path, .error e), _ =>
    ⟨97, "btviz_trace: cannot open " ++ path ++ ": " ++ e.message ++ "\n", none⟩

end Retrace
