import Retrace.Text.Word
/-!
Media types: a type and a subtype with a slash between them, and parameters after semicolons. What
follows the last plus sign of a subtype is its suffix. Case does not matter.
-/
namespace Retrace

open Text

/-- A media type without its parameters. -/
structure MediaType where
  main : List Char
  sub : List Char
  suffix : Option (List Char)
  deriving DecidableEq, Repr

namespace MediaType

/-- A character of a name. -/
def isToken (c : Char) : Bool :=
  isLetter c || isDigit c || "!#$%&'*+-.^_|~".toList.contains c || c == Char.ofNat 96

/-- A character of a quoted value. -/
def isQuotable (c : Char) : Bool := c == '\t' || (32 ≤ c.toNat && c.toNat < 127 && c != '"')

/-- Whether a text goes on after a value in quotes: with blanks, and with another parameter. -/
def afterQuoted (parameters : List Char → Bool) (s : List Char) : Bool :=
  match s.dropWhile (· == ' ') with
  | [] => true
  | c :: r => c == ';' && parameters r

/-- Whether the text after a semicolon is made of parameters. -/
def parametersFrom : Nat → List Char → Bool
  | 0, _ => false
  | fuel + 1, s =>
    let s := s.dropWhile (· == ' ')
    if s.isEmpty then true
    else
      let name := s.takeWhile isToken
      match s.dropWhile isToken with
      | '=' :: '"' :: r =>
        let value := r.takeWhile isQuotable
        match r.dropWhile isQuotable with
        | '"' :: r => !name.isEmpty && !value.isEmpty && afterQuoted (parametersFrom fuel) r
        | _ => false
      | '=' :: r =>
        let value := r.takeWhile isToken
        match r.dropWhile isToken with
        | [] => !name.isEmpty
        | ';' :: r => !name.isEmpty && !value.isEmpty && parametersFrom fuel r
        | _ => false
      | _ => false

/-- Splits a subtype before its suffix. -/
def splitSuffix (s : List Char) : List Char × Option (List Char) :=
  let tail := (s.reverse.takeWhile (· != '+')).reverse
  let rest := s.take (s.length - tail.length - 1)
  if tail.length = s.length ∨ rest.isEmpty then (s, none) else (rest, some tail)

def read? (s : List Char) : Option MediaType :=
  let s := s.map Char.toLower
  let main := s.takeWhile isToken
  match s.dropWhile isToken with
  | '/' :: r =>
    let name := r.takeWhile isToken
    let (sub, suffix) := splitSuffix name
    let fits := match r.dropWhile isToken with
      | [] => true
      | ';' :: r => !name.isEmpty && parametersFrom (r.length + 1) r
      | _ => false
    if !main.isEmpty && fits then some ⟨main, sub, suffix⟩ else none
  | _ => none

/-- Whether documents of a media type are read. -/
def isJson (m : MediaType) : Bool :=
  m.main == "application".toList &&
    (m.sub == "json".toList || m.suffix == some "json".toList)

end MediaType

end Retrace
