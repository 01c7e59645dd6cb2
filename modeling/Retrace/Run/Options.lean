import Retrace.Number.Read
import Retrace.Text.Space
/-!
The options of a traced run.
-/
namespace Retrace

open Text Number

/-- The options of a run: the compiler, the edition of the language, the folder for the folders of
runs, a limit in milliseconds, and whether the program notes the call chain of every step. -/
structure RunOptions where
  compiler : String
  edition : String
  workRoot : Option String
  timeout : Option Nat
  backtraces : Bool
  deriving DecidableEq, Repr

namespace RunOptions

def default : RunOptions := ⟨"rustc", "2021", none, none, true⟩

/-- A number of sixty-four bits, blanks around it aside. -/
def number? (s : String) : Option Nat :=
  (readInt? 0 0xFFFFFFFFFFFFFFFF (trim s.toList)).map Int.toNat

/-- A limit, of which zero is none. -/
def limit? (s : String) : Option Nat := (number? s).filter (0 < ·)

/-- The variables that are looked up in an environment. -/
def variableNames : List String :=
  ["BTVIZ_RUSTC", "RUSTC", "BTVIZ_WORK_ROOT", "BTVIZ_RUN_TIMEOUT_MS"]

/-- The options that the variables of an environment ask for. -/
def ofLookup (lookup : String → Option String) : RunOptions :=
  { default with
    compiler := ((lookup "BTVIZ_RUSTC").or (lookup "RUSTC")).getD default.compiler
    workRoot := (lookup "BTVIZ_WORK_ROOT").filter fun s => !s.isEmpty
    timeout := (lookup "BTVIZ_RUN_TIMEOUT_MS").bind limit? }

/-- The options with another limit, unless that is zero. -/
def withLimit (o : RunOptions) (limit : Option Nat) : RunOptions :=
  { o with timeout := (limit.filter (0 < ·)).or o.timeout }

end RunOptions

end Retrace
