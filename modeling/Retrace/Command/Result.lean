import Retrace.Command.Basic
import Retrace.Graph.Dot
import Retrace.Run.Pipeline
/-!
What commands print. The code is 0 after a success, 1 for a file of which nothing could be made, 2 for
a mistake in the arguments, and 3 for a file that could not be read.
-/
namespace Retrace

namespace Command

/-- What a command leaves: its exit code and what it prints. -/
structure Result where
  code : Nat
  stdout : String
  stderr : String
  deriving DecidableEq, Repr

namespace Result

def document (d : Json) : Result := ⟨0, d.pretty 0 ++ "\n", ""⟩

/-- Ends with a code after lines about errors. -/
def failure (code : Nat) (lines : List String) : Result :=
  ⟨code, "", String.join (lines.map (· ++ "\n"))⟩

/-- A file of which no graph or no trace can be made. -/
def ofAnalysis (file : String) (e : AnalysisError) : Result :=
  match e with
  | .broken f =>
    failure 1 [file ++ ":" ++ toString f.place.line ++ ":" ++ toString f.place.column ++ ": " ++
      e.message]
  | e => failure 1 ["Error: " ++ e.message]

/-- A file that could not be traced. -/
def ofTrace : TraceError → Result
  | .noDeclaration => failure 1 ["Error: " ++ TraceError.noDeclaration.message]
  | .build f =>
    failure 1 ["Compilation failed with " ++ toString f.errors.length ++ " error(s):", f.display]
  | .run f =>
    failure 1 (("Execution error: " ++ f.display) ::
      (if f.stack.isEmpty then [] else [String.ofList (Text.trimEnd f.stack.toList)]))

end Result

def printGraph (file source : String) (maxDepth : Nat) (asDot : Bool) : Result :=
  match StaticGraph.ofSource source (.ofDepth maxDepth) with
  | .ok g => if asDot then ⟨0, g.toDot, ""⟩ else .document g.toJson
  | .error e => .ofAnalysis file e

def printSteps (steps : List Step) : Result := .document (.list (steps.map Step.toJson))

/-- Runs a command with the text of its file. -/
def runOn (host : Host) (o : RunOptions) (source : String) : Command → Result
  | .help page => ⟨0, page, ""⟩
  | .graph file maxDepth asDot => printGraph file source maxDepth asDot
  | .trace file true _ =>
    match staticTrace source with
    | .ok steps => printSteps steps
    | .error e => .ofAnalysis file e
  | .trace _ false timeout =>
    match (Pipeline.run host source (o.withLimit timeout)).1 with
    | .ok steps => printSteps steps
    | .error e => .ofTrace e

/-- Runs a command; `text` gives the text of a file. -/
def run (host : Host) (o : RunOptions) (text : String → Except FileError String) (c : Command) :
    Result :=
  match c.file? with
  | none => c.runOn host o ""
  | some file =>
    match text file with
    | .ok source => c.runOn host o source
    | .error e => .failure 3 ["Error: failed to read '" ++ file ++ "': " ++ e.message]

/-- Runs the command that arguments give. -/
def runArguments (host : Host) (o : RunOptions) (text : String → Except FileError String)
    (args : List String) : Result :=
  match read? args with
  | some c => c.run host o text
  | none => ⟨2, "", ""⟩

end Command

end Retrace
