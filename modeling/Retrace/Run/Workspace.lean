import Retrace.Run.Files
/-!
The folder of a run: a folder of its own inside a larger one, and a list of the files that the run
put there. When the run is over each of these files is removed, then the folder with all that is
left in it. No removal hinders a later one.
-/
namespace Retrace

open Text

/-- The folder of a run, by its path in the folder around all runs, with the paths of the files that
are to be removed. -/
structure Workspace where
  path : List String
  tracked : List (List String)
  deriving DecidableEq, Repr

namespace Workspace

/-- What the name of the folder starts with. -/
def namePrefix : String := "btviz-"

/-- Makes the folder of a run inside a folder that has to be there. -/
def acquire (parent : List String) (name : String) (root : Folder) :
    Except FileError (Workspace × Folder) :=
  let path := parent ++ [name]
  (root.makeFolder path).map fun root => (⟨path, []⟩, root)

def locate (w : Workspace) (file : String) : List String := pathFrom w.path file

/-- Notes that a file is to be removed. -/
def track (w : Workspace) (file : String) : Workspace :=
  if w.locate file ∈ w.tracked then w else { w with tracked := w.tracked ++ [w.locate file] }

/-- Writes a file and notes it, also when it cannot be written. -/
def write (w : Workspace) (file : String) (contents : Contents) (root : Folder) :
    Workspace × Except FileError Folder :=
  (w.track file, root.write (w.locate file) contents)

/-- Does something to a folder, or leaves it as it is. -/
def attempt (change : Folder → Except FileError Folder) (root : Folder) : Folder :=
  match change root with
  | .ok root => root
  | .error _ => root

/-- The folder after the attempts to remove the noted files, the newest first. -/
def clear (w : Workspace) (root : Folder) : Folder :=
  w.tracked.reverse.foldl (fun root path => attempt (Folder.removeFile path) root) root

/-- Removes the noted files, then the folder with all that is left in it. -/
def release (w : Workspace) (root : Folder) : Folder :=
  attempt (Folder.removeAll w.path) (w.clear root)

def entries? (w : Workspace) (root : Folder) : Option Folder :=
  match root.at? w.path with
  | some (.folder f) => some f
  | _ => none

end Workspace

end Retrace
