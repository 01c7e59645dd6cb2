import Retrace.Run.Pipeline
/-!
Rehearsals of a run, in which the compiler and the program do what they are told beforehand.
-/
namespace Retrace

open Text

/-- What the compiler does: what it writes, whether it leaves what it should build, and its end. -/
structure BuildScript where
  stderr : List Char
  built : Bool
  exit : Exit

/-- What the program does: the events, the output and the errors that it writes, whether it outlives
every limit, and its end. -/
structure LaunchScript where
  events : Option Contents
  stdout : Contents
  stderr : Contents
  outlives : Bool
  exit : Exit

/-- A rehearsal: the folder around the runs, whether there is a compiler, what it does with the
support library and with the program, and what the program does. -/
structure Rehearsal where
  parent : Option Folder
  path : String
  name : String
  hasCompiler : Bool
  support : BuildScript
  program : BuildScript
  launch : LaunchScript

namespace Rehearsal

/-- Builds something as a script says. -/
def build (b : BuildScript) (r : BuildRequest) (f : Folder) : CompilerOutput × Folder :=
  (⟨b.exit, b.stderr⟩, if b.built then f.set r.output (some (.file [])) else f)

/-- Runs a program that writes files. -/
def perform (l : LaunchScript) (r : LaunchRequest) (f : Folder) : Folder :=
  let f := match l.events with
    | some contents => f.set r.events (some (.file contents))
    | none => f
  (f.set Pipeline.outputFile (some (.file l.stdout))).set Pipeline.errorFile
    (some (.file l.stderr))

/-- What a run finds around it in a rehearsal. -/
def host (h : Rehearsal) : Host :=
  { parent := match h.parent with
      | some root => .ok root
      | none => .error .notFound
    path := h.path, name := h.name
    hindrance := fun _ => none
    launch := fun r f =>
      match f.get? r.program with
      | some (.file _) =>
        (if h.launch.outlives ∧ r.timeout.isSome then .overdue else .ended h.launch.exit,
          perform h.launch r f)
      | _ => (.unstarted .notFound, f)
    compile := fun r f =>
      if !h.hasCompiler then .error .notFound
      else .ok (build (match r.task with
        | .library .. => h.support
        | .program .. => h.program) r f) }

end Rehearsal

end Retrace
