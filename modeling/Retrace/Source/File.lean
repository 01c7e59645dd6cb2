import Retrace.Source.Item
import Retrace.Source.Lexer
/-!
Reading a whole source text, one expression, or bare tokens.
-/
namespace Retrace.Source

open Text

/-- The readers of the grammar for texts that nest at most as deep as the bound. -/
def grammar : Nat → Grammar
  | 0 =>
    { expression := fun _ => Parser.fail .noExpression
      early := Parser.fail .noExpression
      unary := fun _ => Parser.fail .noExpression
      climb := fun _ _ _ => Parser.fail .noExpression
      type := fun _ => Parser.fail .noExpression
      bound := fun _ => Parser.fail .noExpression
      pattern := Parser.fail .noExpression
      statements := Parser.fail .noExpression
      item := Parser.fail .noExpression
      namedFields := Parser.fail .noExpression
      useTree := fun _ => Parser.fail .noExpression }
  | n + 1 =>
    { expression := fun structs => Source.expression (grammar n) structs
      early := fun s => Source.earlyExpression (grammar n) s
      unary := fun structs => Source.unary (grammar n) structs
      climb := fun structs base left => Source.climb (grammar n) structs base left
      type := fun plus => Source.type (grammar n) plus
      bound := fun rules => Source.bound (grammar n) rules
      pattern := fun s => Source.pattern (grammar n) s
      statements := fun s => Source.statements (grammar n) s
      item := fun s => Source.item (grammar n) s
      namedFields := fun s => Source.namedFields (grammar n) s
      useTree := fun roots => Source.useTree (grammar n) roots }

/-- The readers for texts with the given tokens. A reader calls another one without a token between
them only a few times in a row, so the number of tokens bounds the nesting. -/
def grammarFor (ts : List Token) : Grammar := grammar (8 * Token.sizes ts + 64)

/-- A source text: its characters, from which the places count, and its items. -/
structure Snippet where
  text : List Char
  items : List Node

/-- Whether the first line of a text names an interpreter and is no attribute. -/
def namesInterpreter (s : List Char) : Bool :=
  match stripPrefix? ['#', '!'] s with
  | some rest => (rest.drop (gapLength rest)).head? != some '['
  | none => false

/-- The part of a text that is read: no byte order mark, and of a line that names an interpreter
only its end. -/
def body (s : List Char) : List Char :=
  let s := if s.head? = some (Char.ofNat 0xFEFF) then s.drop 1 else s
  if namesInterpreter s then s.dropWhile (· != '\n') else s

def lex (s : List Char) : Except Fault (List Token) :=
  match tokens s with
  | .ok ts => .ok ts
  | .error place => .error ⟨.brokenToken, place, false⟩

/-- Reads a whole text with a parser. -/
def read {α : Type} (p : Grammar → Parser α) (s : List Char) : Except Fault α := do
  let ts ← lex s
  Parser.complete (p (grammarFor ts)) ts .origin

namespace Snippet

def read (source : String) : Except Fault Snippet := do
  let text := Source.body source.toList
  let items ← Source.read (fun g => do
    let attributes ← innerAttributes g
    return attributes ++ (← Parser.all g.item)) text
  return ⟨text, items⟩

end Snippet

/-- Reads one expression. The text of a snippet goes with it. -/
def readExpression (s : List Char) : Except Fault Node := read (·.expression true) s

/-- The text that a span covers. -/
def Span.slice (text : List Char) (s : Span) : String :=
  String.ofList ((text.drop s.start.offset).take (s.stop - s.start.offset))

end Retrace.Source
