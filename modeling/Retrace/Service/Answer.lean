import Retrace.Json.Sorted
import Retrace.Run.Failure
import Retrace.Graph.Unroll
/-!
Answers of the service, and the faults that it answers with.
-/
namespace Retrace.Service

open Json

/-- An answer: its status, the type of its body, the methods that are allowed, and its body. -/
structure Answer where
  status : Nat
  contentType : Option String
  allow : Option String
  body : String
  deriving DecidableEq, Repr

namespace Answer

def bare (status : Nat) : Answer := ⟨status, none, none, ""⟩

def document (status : Nat) (d : Json) : Answer :=
  ⟨status, some "application/json", none, d.render⟩

def plain (status : Nat) (text : String) : Answer :=
  ⟨status, some "text/plain; charset=utf-8", none, text⟩

def drawing (text : String) : Answer :=
  ⟨200, some "text/vnd.graphviz; charset=utf-8", none, text⟩

/-- The answer to a request that succeeded, with notes if there are any. -/
def success (data : Json) (warnings : List String) : Answer :=
  document 200 (.record ([("success", .truth true), ("data", data)] ++
    (if warnings.isEmpty then [] else [("warnings", .texts warnings)])))

end Answer

/-- A fault that the service answers with: its status, its code, its wording, and what is known about
it. -/
structure Problem where
  status : Nat
  code : String
  message : String
  details : Option Json

namespace Problem

/-- The advice that goes with a program of the wrong shape. -/
def withHint (message : String) : String :=
  message ++ "; rewrite your code to match the expected shape"

/-- A request without a program. -/
def noCode : Problem := ⟨400, "BAD_REQUEST", "no code provided", none⟩

/-- A program of which no graph or no trace can be made. -/
def ofAnalysis (e : AnalysisError) : Problem :=
  match e with
  | .broken f =>
    ⟨422, "SYNTAX_ERROR", e.message,
      some (.record [("line", .nat f.place.line), ("column", .nat f.place.column)])⟩
  | .noBacktracking => ⟨422, "PATTERN_NOT_FOUND", withHint e.message, none⟩
  | .noInstrumentation => ⟨422, "NO_INSTRUMENTATION", withHint e.message, none⟩
  | .malformed _ => ⟨500, "INTERNAL_ERROR", e.message, none⟩

/-- A program that could not be traced. -/
def ofTrace (e : TraceError) : Problem :=
  match e with
  | .noDeclaration => ⟨422, "NO_DECLARATION", withHint e.message, none⟩
  | .build f =>
    ⟨422, "COMPILE_ERROR", f.display, some (.list (f.diagnostics.map Diagnostic.toJson))⟩
  | .run f => ⟨422, "EXECUTION_ERROR", f.display, some f.toJson⟩

/-- The answer that a fault leads to; the fields of its records stand in the order of their names. -/
def answer (p : Problem) : Answer :=
  let error : Json := .record ([("code", .text p.code), ("message", .text p.message)] ++
    (p.details.map fun d => ("details", d)).toList)
  .document p.status (sorted (.record [("success", .truth false), ("error", error)]))

end Problem

end Retrace.Service
