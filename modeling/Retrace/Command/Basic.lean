import Retrace.Command.Usage
/-!
Commands, and the command lines that give them.
-/
namespace Retrace

/-- A command: the graph of a file, or its trace, or a page of help. -/
inductive Command where
  | graph (file : String) (maxDepth : Nat) (asDot : Bool)
  | trace (file : String) (isStatic : Bool) (timeout : Option Nat)
  | help (page : String)
  deriving DecidableEq, Repr

namespace Command

def ofGraph? (g : Given) : Option Command := g.file.map fun file =>
  .graph file ((g.value? "max-depth").getD GraphOptions.default.maxDepth) (g.has "dot")

def ofTrace? (g : Given) : Option Command := g.file.map fun file =>
  .trace file (g.has "static") (g.value? "timeout-ms")

/-- The command that is used in some way, by its arguments. -/
def readUsed? (u : Usage) (command? : Given → Option Command) (args : List String) :
    Option Command :=
  match Given.read u.flags args with
  | .ok g => command? g
  | .error .help => some (.help u.page)
  | .error .mistake => none

def readHelp? : List String → Option Command
  | [] => some (.help Usage.mainPage)
  | ["help"] => some (.help Usage.helpPage)
  | [name] => (Usage.all.find? fun u => u.name == name).map fun u => .help u.page
  | _ => none

/-- The command that arguments give; none for a mistake. -/
def read? : List String → Option Command
  | [] => none
  | name :: args =>
    if name = Usage.graph.name then readUsed? .graph ofGraph? args
    else if name = Usage.trace.name then readUsed? .trace ofTrace? args
    else if name = "help" then readHelp? args
    else match Given.read [] [name] with
      | .error .help => some (.help Usage.mainPage)
      | _ => none

def file? : Command → Option String
  | .graph file _ _ | .trace file _ _ => some file
  | .help _ => none

end Command

end Retrace
