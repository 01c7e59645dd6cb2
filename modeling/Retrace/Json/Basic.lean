import Retrace.Number.Style
/-!
Documents and their written form. A number is kept as it is written, so that what is printed does
not depend on how it was computed.
-/
namespace Retrace

open Number

/-- A document. -/
inductive Json where
  | null
  | truth (b : Bool)
  | number (text : String)
  | text (s : String)
  | list (items : List Json)
  | record (fields : List (String × Json))

namespace Json

def hexDigit (n : Nat) : Char := "0123456789abcdef".toList.getD n '0'

/-- The escape of a control character by its number. -/
def escapeCode (c : Char) : List Char :=
  ['\\', 'u', '0', '0', hexDigit (c.toNat / 16), hexDigit (c.toNat % 16)]

/-- The letters that stand for control characters after a backslash. -/
abbrev Letters := List (Char × Char)

/-- The letters that a record uses. -/
def recordLetters : Letters :=
  [('\n', 'n'), ('\r', 'r'), ('\t', 't'), (Char.ofNat 8, 'b'), (Char.ofNat 12, 'f')]

/-- The written form of a character inside quotes. -/
def escape (letters : Letters) (c : Char) : List Char :=
  if c = '"' then ['\\', '"']
  else if c = '\\' then ['\\', '\\']
  else match letters.lookup c with
    | some l => ['\\', l]
    | none => if c.toNat < 32 then escapeCode c else [c]

def quoteWith (letters : Letters) (s : List Char) : List Char :=
  '"' :: s.flatMap (escape letters) ++ ['"']

/-- The written form of a text in a record. -/
def quote (s : String) : String := String.ofList (quoteWith recordLetters s.toList)

def int (n : Int) : Json := number (toString n)

def nat (n : Nat) : Json := number (toString n)

/-- A floating point number, which is null unless it is finite. -/
def float (x : Binary) : Json :=
  if x.isFinite then number (Style.record.render .double x) else null

def ofOption {α : Type} (f : α → Json) : Option α → Json
  | some a => f a
  | none => null

def texts (ss : List String) : Json := list (ss.map text)

/-- The opening and closing marks of a record. -/
def openBrace : String := "\x7b"

@[inherit_doc openBrace]
def closeBrace : String := "\x7d"

mutual
/-- The written form without blanks. -/
def render : Json → String
  | null => "null"
  | truth b => if b then "true" else "false"
  | number t => t
  | text s => quote s
  | list items => "[" ++ renderItems items ++ "]"
  | record fields => openBrace ++ renderFields fields ++ closeBrace

def renderItems : List Json → String
  | [] => ""
  | [d] => d.render
  | d :: ds => d.render ++ "," ++ renderItems ds

def renderFields : List (String × Json) → String
  | [] => ""
  | [(k, d)] => quote k ++ ":" ++ d.render
  | (k, d) :: ds => quote k ++ ":" ++ d.render ++ "," ++ renderFields ds
end

/-- The start of a line that is indented by `n` steps. -/
def newline (n : Nat) : String := String.ofList ('\n' :: List.replicate (2 * n) ' ')

mutual
/-- The written form on indented lines; an empty list or record stays on its line. -/
def pretty (n : Nat) : Json → String
  | list [] => "[]"
  | list items => "[" ++ newline (n + 1) ++ prettyItems (n + 1) items ++ newline n ++ "]"
  | record [] => openBrace ++ closeBrace
  | record fields =>
    openBrace ++ newline (n + 1) ++ prettyFields (n + 1) fields ++ newline n ++ closeBrace
  | null => "null"
  | truth b => if b then "true" else "false"
  | number t => t
  | text s => quote s

def prettyItems (n : Nat) : List Json → String
  | [] => ""
  | [d] => d.pretty n
  | d :: ds => d.pretty n ++ "," ++ newline n ++ prettyItems n ds

def prettyFields (n : Nat) : List (String × Json) → String
  | [] => ""
  | [(k, d)] => quote k ++ ": " ++ d.pretty n
  | (k, d) :: ds => quote k ++ ": " ++ d.pretty n ++ "," ++ newline n ++ prettyFields n ds
end

end Json

end Retrace
