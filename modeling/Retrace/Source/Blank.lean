import Retrace.Text.Space
import Retrace.Text.Search
/-!
What stands between the tokens of a source text: blanks, the two direction marks, and comments that
are no documentation. Block comments nest.
-/
namespace Retrace.Source

open Retrace.Text

/-- Whether the text starts with `p`. -/
def opens (p : String) (s : List Char) : Bool := (stripPrefix? p.toList s).isSome

/-- A blank of the source language, which counts the two direction marks as blanks. -/
def isGap (c : Char) : Bool := isBlank c || c.toNat == 0x200E || c.toNat == 0x200F

/-- A comment to the end of the line that is no documentation. -/
def opensLineComment (s : List Char) : Bool :=
  opens "//" s && (!opens "///" s || opens "////" s) && !opens "//!" s

/-- A comment in marks that is no documentation. -/
def opensBlockComment (s : List Char) : Bool :=
  opens "/*" s && (!opens "/**" s || opens "/***" s) && !opens "/*!" s

/-- The length of a block comment with `depth` comments open after `n` characters. -/
def blockLength (depth n : Nat) : List Char → Option Nat
  | [] => none
  | '/' :: '*' :: s => blockLength (depth + 1) (n + 2) s
  | '*' :: '/' :: s => if depth ≤ 1 then some (n + 2) else blockLength (depth - 1) (n + 2) s
  | _ :: s => blockLength depth (n + 1) s

/-- The length of the text up to the end of its first line, the carriage return before a line feed
being part of the ending. -/
def lineLength (n : Nat) : List Char → Nat
  | [] => n
  | '\n' :: _ => n
  | '\r' :: '\n' :: _ => n
  | _ :: s => lineLength (n + 1) s

/-- The length of the blanks and comments at the start of a text, continued with fuel. -/
def gapLengthFrom : Nat → Nat → List Char → Nat
  | 0, n, _ => n
  | _ + 1, n, [] => n
  | fuel + 1, n, c :: s =>
    if opensLineComment (c :: s) then
      let k := lineLength 0 (c :: s)
      gapLengthFrom fuel (n + k) ((c :: s).drop k)
    else if opens "/**/" (c :: s) then gapLengthFrom fuel (n + 4) (s.drop 3)
    else if opensBlockComment (c :: s) then
      match blockLength 0 0 (c :: s) with
      | some k => gapLengthFrom fuel (n + k) ((c :: s).drop k)
      | none => n
    else if isGap c then gapLengthFrom fuel (n + 1) s
    else n

/-- The length of the blanks and comments at the start of a text. -/
def gapLength (s : List Char) : Nat := gapLengthFrom s.length 0 s

end Retrace.Source
