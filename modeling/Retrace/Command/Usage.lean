import Retrace.Command.Arguments
import Retrace.Graph.Unroll
/-!
What the commands are called, what they take, and the pages that say so.
-/
namespace Retrace

/-- How a command is used: its name, what it does, what its file is, and its options. -/
structure Usage where
  name : String
  about : String
  file : String
  flags : List Flag
  deriving DecidableEq, Repr

/-- Pairs under each other, the second parts aligned. -/
def aligned (rows : List (String × String)) : List String :=
  let width := (rows.map fun r => r.1.length).foldl max 0
  rows.map fun (left, right) =>
    "  " ++ left ++ String.ofList (List.replicate (width - left.length) ' ') ++ "  " ++ right

namespace Usage

def program : String := "btviz"

/-- The names of an option, with the name of its value. -/
def flagNames (f : Flag) : String :=
  (match f.short with
    | some c => String.ofList ['-', c] ++ ", "
    | none => "    ") ++
    "--" ++ f.long ++ (f.value.map fun v => " <" ++ v ++ ">").getD ""

def page (u : Usage) : String :=
  String.intercalate "\n" <|
    [u.about, "", "Usage: " ++ program ++ " " ++ u.name ++ " [OPTIONS] <FILE>", "", "Arguments:"] ++
      aligned [("<FILE>", u.file)] ++
      ["", "Options:"] ++
      aligned ((u.flags ++ [Flag.help]).map fun f => (flagNames f, f.about)) ++ [""]

def graph : Usage where
  name := "graph"
  about := "Print the static recursion graph of a backtracking routine"
  file := "Rust source file"
  flags := [
    ⟨"max-depth", some 'm', some "MAX_DEPTH",
      "Unrolling depth, clamped to 1..=10 [default: " ++
        toString GraphOptions.default.maxDepth ++ "]"⟩,
    ⟨"dot", none, none, "Print Graphviz DOT instead of JSON"⟩]

def trace : Usage where
  name := "trace"
  about := "Record the steps of an instrumented program"
  file := "Rust source file using `capture_step!`"
  flags := [
    ⟨"static", none, none, "Read the `capture_step!` calls from the source without running it"⟩,
    ⟨"timeout-ms", none, some "TIMEOUT_MS", "Kill the program after this many milliseconds"⟩]

def all : List Usage := [graph, trace]

/-- What the command for help does. -/
def helpAbout : String := "Print this message or the help of the given subcommand(s)"

def mainPage : String :=
  String.intercalate "\n" <|
    ["Backtracking visualizer tools", "", "Usage: " ++ program ++ " <COMMAND>", "", "Commands:"] ++
      aligned (all.map (fun u => (u.name, u.about)) ++ [("help", helpAbout)]) ++
      ["", "Options:"] ++ aligned [(flagNames .help, Flag.help.about)] ++ [""]

def helpPage : String :=
  String.intercalate "\n" <|
    [helpAbout, "", "Usage: " ++ program ++ " help [COMMAND]...", "", "Arguments:"] ++
      aligned [("[COMMAND]...", "Print help for the subcommand(s)")] ++ [""]

end Usage

end Retrace
