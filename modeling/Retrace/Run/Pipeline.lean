import Retrace.Run.Options
import Retrace.Run.SupportSource
import Retrace.Run.Toolchain
import Retrace.Run.Workspace
import Retrace.Source.Routine
import Retrace.Trace.Replay
/-!
Running a program to trace it. The program is written into a folder of its own, built together with
the support library, and run once; the events that it wrote are replayed. Whatever happens, the
folder is removed in the end.
-/
namespace Retrace

open Source Text

/-- An order to run a program. -/
structure LaunchRequest where
  program : String
  events : String
  timeout : Option Nat
  backtraces : Bool
  deriving DecidableEq, Repr

namespace LaunchRequest

/-- The variables that the program finds in its environment. -/
def environment (r : LaunchRequest) : List (String × String) :=
  [("BTVIZ_TRACE_FILE", r.events),
    ("BTVIZ_CAPTURE_BACKTRACE", if r.backtraces then "1" else "0"), ("RUST_BACKTRACE", "1")]

end LaunchRequest

/-- How it goes with a program that is to run: it cannot be started, or not be waited for, it takes
too long, or it comes to an end. -/
inductive Outcome where
  | unstarted (e : FileError)
  | lost (e : FileError)
  | overdue
  | ended (exit : Exit)

/-- What a run finds around it: the folder for its own folder, or why there is none; the path and the
name that its own folder gets; what hinders the use of a file, by the name of the file; and what a
program does in a folder and leaves there. -/
structure Surroundings where
  parent : Except FileError Folder
  path : String
  name : String
  hindrance : String → Option FileError
  launch : LaunchRequest → Folder → Outcome × Folder

/-- The surroundings of a run, and the compiler in them. -/
structure Host extends Surroundings where
  compile : Compiler

/-- What happened in a run: the orders given, with the folder at that time, the program that came
to its end, and the folder around all runs as it was left. -/
structure Course (Order : Type) where
  builds : List (Order × Folder)
  finished : Option LaunchRequest
  root : Folder

/-- What happened in a run with a compiler. -/
abbrev Journal := Course BuildRequest

def Entry.text : Entry → Except FileError (List Char)
  | .folder _ => .error .isFolder
  | .file contents =>
    match spelled? contents with
    | some text => .ok text
    | none => .error .noText

namespace Surroundings

/-- The folder around all runs, as a run finds it. -/
def around (h : Surroundings) : Folder :=
  match h.parent with
  | .ok root => root
  | .error _ => []

def acquire (h : Surroundings) : Except FileError (Workspace × Folder) :=
  match h.parent with
  | .ok root => Workspace.acquire [] h.name root
  | .error e => .error (.atPath h.path e)

def write (h : Surroundings) (w : Workspace) (file : String) (contents : Contents)
    (root : Folder) : Except FileError Folder :=
  match h.hindrance file with
  | some e => .error e
  | none => (w.write file contents root).2

/-- The text of a file in the folder of a run. -/
def text (h : Surroundings) (file : String) (f : Folder) : Except FileError (List Char) :=
  match f.get? file, h.hindrance file with
  | none, _ => .error .notFound
  | some _, some e => .error e
  | some entry, none => entry.text

end Surroundings

namespace Pipeline

/-- A step of a run, which may fail; the workspace and the course are kept in any case. -/
abbrev Stage := ExceptT TraceError (StateM (Workspace × Course BuildTask))

def eventsFile : String := "events.jsonl"

def outputFile : String := "stdout.log"

def errorFile : String := "stderr.log"

def fileFailure (what : String) (e : FileError) : RunFailure :=
  ⟨.io, what ++ ": " ++ e.message, ""⟩

def entries : Stage Folder := do
  let (w, j) ← get
  return (w.entries? j.root).getD []

def setEntries (f : Folder) : Stage Unit := modify fun (w, j) =>
  let root := Workspace.attempt (Folder.updateAt (fun _ => .ok (some (.folder f))) w.path) j.root
  (w, { j with root })

/-- Notes that a file is to be removed. -/
def track (file : String) : Stage Unit := modify fun (w, j) => (w.track file, j)

/-- Writes a file, which is removed in the end also when it cannot be written. -/
def writeFile (h : Surroundings) (what file : String) (text : List Char) : Stage Unit := do
  track file
  let (w, j) ← get
  match h.write w file (text.map some) j.root with
  | .ok root => set (w, { j with root })
  | .error e => throw (TraceError.run (fileFailure what e))

/-- Builds a part of the run. -/
def build (t : Toolchain) (task : BuildTask) : Stage String := do
  track task.output
  let f ← entries
  let (built, left) := t task f
  modify fun (w, j) => (w, { j with builds := j.builds ++ [(task, f)] })
  setEntries left
  match built with
  | .ok path => return path
  | .error e => throw e

/-- What the program said about errors in a folder. -/
def stderrIn (f : Folder) : List Char := ((f.read? [errorFile]).bind spelled?).getD []

def launch (h : Surroundings) (r : LaunchRequest) : Stage Unit := do
  track outputFile
  track errorFile
  writeFile h "creating stdout log" outputFile []
  writeFile h "creating stderr log" errorFile []
  let (outcome, left) := h.launch r (← entries)
  setEntries left
  match outcome with
  | .unstarted e => throw (.run (fileFailure "spawning snippet" e))
  | .lost e => throw (.run (fileFailure "waiting for snippet" e))
  | .overdue => throw (.run (.timeout (r.timeout.getD 0) (stderrIn left)))
  | .ended exit =>
    modify fun (w, j) => (w, { j with finished := some r })
    if !exit.isSuccess then throw (.run (.ofExit exit (stderrIn left)))

/-- Records the events of a text, if there is one to read. Without a file there are none. -/
def ingestText (c : Collector) : Except FileError (List Char) → Collector × Option RunFailure
  | .ok text => c.ingest text
  | .error .notFound => (c, none)
  | .error e => (c, some (fileFailure "reading event file" e))

def ingestFile (c : Collector) : Option Entry → Collector × Option RunFailure
  | none => ingestText c (.error .notFound)
  | some entry => ingestText c entry.text

/-- Replays the events that the program wrote. -/
def replay (h : Surroundings) (c : Collector) : Stage (List Step) := do
  match ingestText c (h.text eventsFile (← entries)) with
  | (c, none) => return c.steps
  | (_, some f) => throw (.run f)

/-- The program with an entry point that goes to the one of its unit, unless it has one. -/
def withEntryPoint (s : Snippet) (source unit : String) : String :=
  if !s.hasMain && s.unitHasMain unit then
    source ++ "\n\nfn main() \x7b\n    " ++ unit ++ "::main();\n\x7d\n"
  else source

/-- All that is done inside the folder of a run. -/
def stages (t : Toolchain) (h : Surroundings) (s : Snippet) (source unit : String)
    (o : RunOptions) : Stage (List Step) := do
  writeFile h "writing snippet" (unit ++ ".rs") (withEntryPoint s source unit).toList
  writeFile h "writing support crate" Support.fileName Support.source.toList
  let library ← build t (.library Support.libraryName Support.fileName)
  let program ← build t (.program (unit ++ ".rs") unit [(Support.libraryName, library)])
  track eventsFile
  launch h ⟨program, eventsFile, o.timeout, o.backtraces⟩
  replay h (.new .default s.signatures)

/-- The failure of a program that cannot be read. -/
def syntaxFailure (f : Fault) : TraceError :=
  .build (.single f.message (some f.place.line) (some f.place.column))

/-- Runs a program to trace it, built by a toolchain. -/
def runWith (t : Toolchain) (h : Surroundings) (source : String) (o : RunOptions) :
    Except TraceError (List Step) × Course BuildTask :=
  let course : Course BuildTask := ⟨[], none, h.around⟩
  match Snippet.read source with
  | .error f => (.error (syntaxFailure f), course)
  | .ok s =>
    match s.unit? with
    | none => (.error .noDeclaration, course)
    | some unit =>
      match h.acquire with
      | .error e => (.error (.run (fileFailure "creating workspace" e)), course)
      | .ok (w, root) =>
        let (result, w, j) := (stages t h s source unit o).run.run (w, { course with root })
        (result, { j with root := w.release j.root })

/-- Runs a program to trace it, built by the compiler of a host. The journal has the orders that the
compiler took. -/
def run (host : Host) (source : String) (o : RunOptions) :
    Except TraceError (List Step) × Journal :=
  let toolchain := Toolchain.ofCompiler host.compile o.compiler o.edition
  let (result, j) := runWith toolchain host.toSurroundings source o
  let taken := j.builds.filterMap fun (task, f) =>
    let r : BuildRequest := ⟨o.compiler, o.edition, task⟩
    (host.compile r f).toOption.map fun _ => (r, f)
  (result, ⟨taken, j.finished, j.root⟩)

end Pipeline

end Retrace
