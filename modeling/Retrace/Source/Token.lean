import Retrace.Source.Name
import Retrace.Source.Place
/-!
Tokens of a source text. Groups are matched, so the tokens of a text form a tree; every token knows
the place where it starts and the offset where it stops.
-/
namespace Retrace.Source

/-- The three kinds of delimiters that enclose a group. -/
inductive Delimiter where
  | paren
  | bracket
  | brace
  deriving DecidableEq, Repr

namespace Delimiter

/-- How a message names a group. -/
def groupName : Delimiter → String
  | paren => "parentheses"
  | bracket => "square brackets"
  | brace => "curly braces"

def closer : Delimiter → Char
  | paren => ')'
  | bracket => ']'
  | brace => Char.ofNat 125

def ofOpener? (c : Char) : Option Delimiter :=
  if c = '(' then some paren
  else if c = '[' then some bracket
  else if c.toNat = 123 then some brace
  else none

def ofCloser? (c : Char) : Option Delimiter :=
  if c = ')' then some paren
  else if c = ']' then some bracket
  else if c.toNat = 125 then some brace
  else none

end Delimiter

/-- A token. A punctuation character is `joint` when another one follows it directly. -/
inductive Token where
  | word (name : Name) (start : Place) (stop : Nat)
  | lifetime (name : String) (start : Place) (stop : Nat)
  | mark (char : Char) (joint : Bool) (start : Place) (stop : Nat)
  | literal (text : List Char) (start : Place) (stop : Nat)
  | group (delimiter : Delimiter) (inner : List Token) (start close : Place) (stop : Nat)

namespace Token

def start : Token → Place
  | word _ p _ | lifetime _ p _ | mark _ _ p _ | literal _ p _ | group _ _ p _ _ => p

mutual
/-- Whether the token is the word `name` or a group that holds it at any depth. The name of a
lifetime counts as a word. -/
def mentions (name : String) : Token → Bool
  | word n _ _ => n.text == name
  | lifetime n _ _ => n == name
  | group _ inner _ _ _ => anyMentions name inner
  | mark .. | literal .. => false

/-- Whether one of the tokens mentions the word `name`. -/
def anyMentions (name : String) : List Token → Bool
  | [] => false
  | t :: ts => t.mentions name || anyMentions name ts
end

mutual
/-- The number of tokens in a token, groups counting as one more than what they hold. -/
def size : Token → Nat
  | group _ inner _ _ _ => sizes inner + 1
  | word .. | lifetime .. | mark .. | literal .. => 1

def sizes : List Token → Nat
  | [] => 0
  | t :: ts => t.size + sizes ts
end

end Token

end Retrace.Source
