import Retrace.Trace.Symbol
/-!
The symbols that never appear in a recorded call stack: those of the machinery around the traced
routines.
-/
namespace Retrace

open Text

/-- Symbols that are left out, given by prefixes and in full. -/
structure Denylist where
  prefixes : List String
  exact : List String
  deriving DecidableEq, Repr

namespace Denylist

def empty : Denylist := ⟨[], []⟩

/-- The list that leaves out the machinery of a native program. -/
def default : Denylist :=
  ⟨["std::", "core::", "alloc::", "test::", "backtrace::", "panic_unwind::", "gimli::",
      "addr2line::", "miniz_oxide::", "object::", "rustc_demangle::", "__rust", "__libc", "__scrt",
      "_start", "rust_begin_unwind", "start_thread", "__GI_", "__clone", "_pthread",
      "btviz_trace::", "btviz_core::", "btviz_exec::"],
    ["main", "clone", "clone3", "__clone", "thread_start", "invoke_main", "mainCRTStartup",
      "BaseThreadInitThunk", "RtlUserThreadStart", "<unknown>"]⟩

def denyPrefix (d : Denylist) (p : String) : Denylist := { d with prefixes := d.prefixes ++ [p] }

/-- Whether a path starts with a prefix of the list. -/
def deniesPath (d : Denylist) (path : List Char) : Bool :=
  d.prefixes.any fun p => (stripPrefix? p.toList path).isSome

/-- Whether a symbol is left out. A qualified symbol is left out when its type or its trait is. -/
def denies (d : Denylist) (symbol : String) : Bool :=
  d.exact.contains symbol ||
    match Symbol.qualified? symbol.toList with
    | some (self, ofTrait) => d.deniesPath self || ofTrait.any d.deniesPath
    | none => d.deniesPath symbol.toList

end Denylist

end Retrace
