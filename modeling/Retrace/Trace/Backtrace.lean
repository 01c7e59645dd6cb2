import Retrace.Trace.Symbol
import Retrace.Number.Read
/-!
Backtraces as text. A frame is a line with a number and a symbol; the line after it may say where
the frame stands. The innermost frame comes first.
-/
namespace Retrace

open Text Number

/-- A frame of a native call chain. -/
structure RawFrame where
  symbol : String
  file : Option String
  line : Option Nat
  deriving DecidableEq, Repr

namespace RawFrame

/-- A frame without a file. -/
def ofSymbol (symbol : String) (line : Option Nat) : RawFrame :=
  ⟨String.ofList (Symbol.normalize symbol.toList), none, line⟩

/-- The name of the frame's routine. -/
def short (f : RawFrame) : String := String.ofList (Symbol.short f.symbol.toList)

end RawFrame

namespace Backtrace

/-- The file and the line of a location. Two numbers, a line and a column, may follow the file, or
one. -/
def location (s : List Char) : List Char × Option Nat :=
  match splitLast [':'] s with
  | none => (s, none)
  | some (rest, last) =>
    match splitLast [':'] rest with
    | some (file, line) => (file, readWord32? line)
    | none => (rest, readWord32? last)

/-- What a line of a backtrace says. -/
inductive Entry where
  | frame (symbol : List Char)
  | location (text : List Char)
  | other

def entry (line : List Char) : Entry :=
  let s := trim line
  match stripPrefix? "at ".toList s with
  | some rest => .location rest
  | none =>
    match splitOnce ": ".toList s with
    | some (number, symbol) =>
      if !number.isEmpty && number.all isDigit then .frame symbol else .other
    | none => .other

/-- Adds what a line says to the frames before it, the latest first. Only the first location after
a frame belongs to it. -/
def add (frames : List RawFrame) (line : List Char) : List RawFrame :=
  match entry line with
  | .frame symbol => .ofSymbol (String.ofList symbol) none :: frames
  | .location text =>
    match frames with
    | f :: rest =>
      if f.file.isNone then
        let (file, line) := location text
        { f with file := some (String.ofList file), line := line } :: rest
      else frames
    | [] => []
  | .other => frames

def parse (text : String) : List RawFrame := ((lines text.toList).foldl add []).reverse

end Backtrace

end Retrace
