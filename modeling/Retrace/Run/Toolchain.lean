import Retrace.Run.Compiler
import Retrace.Run.Files
import Retrace.Text.Search
/-!
Building the parts of a run. A toolchain is told what to build, is given the entries of the folder of
the run, and leaves others, with the path of what it built or the reason why there is nothing.
-/
namespace Retrace

open Text

/-- What is to be built: a library out of a file, or a program that is linked with libraries, given
by their names and paths. -/
inductive BuildTask where
  | library (name source : String)
  | program (source output : String) (links : List (String × String))
  deriving DecidableEq, Repr

def libraryFile (name : String) : String := "lib" ++ name ++ ".rlib"

namespace BuildTask

/-- The file that is to be built. -/
def output : BuildTask → String
  | library name _ => libraryFile name
  | program _ output _ => output

def source : BuildTask → String
  | library _ source | program source _ _ => source

end BuildTask

/-- What builds the parts of a run. -/
abbrev Toolchain := BuildTask → Folder → Except TraceError String × Folder

/-! ### Compilers -/

/-- An order to the compiler. -/
structure BuildRequest where
  compiler : String
  edition : String
  task : BuildTask
  deriving DecidableEq, Repr

namespace BuildRequest

def output (r : BuildRequest) : String := r.task.output

def source (r : BuildRequest) : String := r.task.source

/-- The path of a file without its last part. -/
def folderOf (path : String) : String :=
  match splitLast ['/'] path.toList with
  | some (folder, _) => String.ofList folder
  | none => ""

/-- The arguments for a link with a library. -/
def linkArguments (folder : String) (link : String × String) : List String :=
  let path := folder ++ "/" ++ link.2
  ["--extern", link.1 ++ "=" ++ path, "-L", "dependency=" ++ folderOf path]

/-- The arguments of the compiler in a folder. -/
def arguments (r : BuildRequest) (folder : String) : List String :=
  ["--edition", r.edition, "--error-format=json", "-C", "debuginfo=2", "-C", "opt-level=0"] ++
    match r.task with
    | .library name source =>
      ["--crate-type", "rlib", "--crate-name", name, "--out-dir", folder, folder ++ "/" ++ source]
    | .program source output links =>
      ["--crate-type", "bin", "--crate-name", "snippet"] ++
        links.flatMap (linkArguments folder) ++
        ["-o", folder ++ "/" ++ output, folder ++ "/" ++ source]

end BuildRequest

/-- What a compiler does with an order in a folder, if there is a compiler. -/
abbrev Compiler := BuildRequest → Folder → Except FileError (CompilerOutput × Folder)

/-- What was built, as far as the output of a compiler and the folder that it left tell. -/
def BuildTask.judge (output : CompilerOutput) (left : Folder) : BuildTask → Except TraceError String
  | library name _ =>
    match output.supportFailure? name (left.get? (libraryFile name)).isSome with
    | some f => .error (.run f)
    | none => .ok (libraryFile name)
  | program _ target _ =>
    match output.programFailure? with
    | some f => .error (.build f)
    | none => .ok target

/-- The toolchain of a compiler. -/
def Toolchain.ofCompiler (compile : Compiler) (compiler edition : String) : Toolchain :=
  fun task f =>
    match compile ⟨compiler, edition, task⟩ f with
    | .ok (output, left) => (task.judge output left, left)
    | .error e =>
      (.error (.run ⟨.toolchain, "failed to run " ++ compiler ++ ": " ++ e.message, ""⟩), f)

end Retrace
