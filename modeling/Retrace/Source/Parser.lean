import Retrace.Source.Fault
import Retrace.Source.Literal
import Retrace.Source.Node
/-!
Reading tokens. A parser takes tokens off the front of the current group. A group that holds more
than its parser takes is no fault at once: the first token left over anywhere is remembered, and
`Parser.complete` turns it into a fault when all else went well.
-/
namespace Retrace.Source

open Retrace.Text

/-- A token that a group was left with, and the group. -/
structure Stray where
  place : Place
  inside : Option Delimiter

/-- What is left to read: the tokens of the current group, the place that ends it, where the last
token taken stops and whether it was a group in curly braces, and the first stray token. -/
structure State where
  rest : List Token
  scope : Place
  inside : Option Delimiter
  stop : Nat
  afterBrace : Bool
  stray : Option Stray

/-- A reader of tokens that may fail. -/
abbrev Parser := StateT State (Except Fault)

/-- The words that cannot name anything. -/
def keywords : List String :=
  ["_", "abstract", "as", "async", "await", "become", "box", "break", "const", "continue", "crate",
    "do", "dyn", "else", "enum", "extern", "false", "final", "fn", "for", "if", "impl", "in", "let",
    "loop", "macro", "match", "mod", "move", "mut", "override", "priv", "pub", "ref", "return",
    "Self", "self", "static", "struct", "super", "trait", "true", "try", "type", "typeof", "unsafe",
    "unsized", "use", "virtual", "where", "while", "yield"]

/-! ### Looking ahead -/

/-- The tokens after the marks `cs`, which must follow each other directly, and where the last of
them stops. -/
def afterMarks? : List Char → List Token → Option (List Token × Nat)
  | [c], .mark d _ _ stop :: ts => if c = d then some (ts, stop) else none
  | c :: cs, .mark d joint _ _ :: ts => if c = d ∧ joint then afterMarks? cs ts else none
  | _, _ => none

/-- The tokens after the word or the marks spelled `text`, and where it stops. -/
def afterSpelled? (text : String) (ts : List Token) : Option (List Token × Nat) :=
  if text.toList.head?.any startsWord then
    match ts with
    | .word name _ stop :: ts => if name.text = text then some (ts, stop) else none
    | _ => none
  else afterMarks? text.toList ts

/-- Whether the word or the marks spelled `text` come next. -/
def sees (text : String) (ts : List Token) : Bool := (afterSpelled? text ts).isSome

/-- Whether one of the words or marks comes next. -/
def seesAny (texts : List String) (ts : List Token) : Bool := texts.any (sees · ts)

/-- Whether a word comes next, be it a keyword. -/
def seesWord : List Token → Bool
  | .word .. :: _ => true
  | _ => false

def seesIdentifier : List Token → Bool
  | .word name _ _ :: _ => !keywords.contains name.text
  | _ => false

def seesLifetime : List Token → Bool
  | .lifetime .. :: _ => true
  | _ => false

def seesGroup (d : Delimiter) : List Token → Bool
  | .group d' .. :: _ => d' == d
  | _ => false

/-- The literal that comes next, whether it is negated, the tokens after it and where it stops. -/
def literalAhead? : List Token → Option (Literal × Bool × List Token × Nat)
  | .literal text _ stop :: ts => some (.ofText text, false, ts, stop)
  | .word name _ stop :: ts =>
    if name.text = "true" then some (.truth true, false, ts, stop)
    else if name.text = "false" then some (.truth false, false, ts, stop)
    else none
  | .mark '-' _ _ _ :: .literal text _ stop :: ts =>
    match Literal.ofText text with
    | .whole n suffix => some (.whole n suffix, true, ts, stop)
    | .decimal digits suffix => some (.decimal digits suffix, true, ts, stop)
    | _ => none
  | _ => none

def seesLiteral (ts : List Token) : Bool := (literalAhead? ts).isSome

/-- Whether a literal text comes next. -/
def seesText (ts : List Token) : Bool :=
  match literalAhead? ts with
  | some (.text _, _) => true
  | _ => false

namespace Want

/-- Whether it stands at the front of the tokens. -/
def stands : Want → List Token → Bool
  | spelled text => sees text
  | identifier => seesIdentifier
  | lifetime => seesLifetime
  | literal => seesLiteral
  | stringLiteral => seesText
  | group d => seesGroup d

end Want

namespace State

/-- The place of the next token, or the end of the current group. -/
def place (s : State) : Place :=
  match s.rest with
  | t :: _ => t.start
  | [] => s.scope

/-- A fault at the next token. -/
def fault (s : State) (cause : Cause) : Fault := ⟨cause, s.place, s.rest.isEmpty⟩

/-- The fault that none of the things looked for stands there. -/
def faultAmong (s : State) (wants : List Want) : Fault :=
  s.fault (.expected (wants.filter fun w => !w.stands s.rest))

/-- The first token that is still there, unless a stray one is known. -/
def firstStray (s : State) : Option Stray :=
  s.stray.or (s.rest.head?.map fun t => ⟨t.start, s.inside⟩)

/-- The start of the tokens of a group that closes at `scope`. -/
def ofTokens (ts : List Token) (scope : Place) : State := ⟨ts, scope, none, 0, false, none⟩

end State

namespace Parser

variable {α β : Type}

/-- The tokens that come next. -/
def ahead : Parser (List Token) := State.rest <$> get

/-- The place of the next token. -/
def here : Parser Place := State.place <$> get

/-- Fails at the next token. -/
def fail (cause : Cause) : Parser α := do throw ((← get).fault cause)

def failAt (place : Place) (cause : Cause) : Parser α := throw ⟨cause, place, false⟩

/-- Fails since none of the things looked for comes next. -/
def failAmong (wants : List Want) : Parser α := do throw ((← get).faultAmong wants)

/-- Goes on at the tokens `ts`, the last one taken having stopped at `stop`. -/
def goOn (ts : List Token) (stop : Nat) : Parser Unit :=
  modify fun s => { s with rest := ts, stop := stop, afterBrace := false }

/-- Takes the word or the marks spelled `text`. -/
def take (text : String) : Parser Unit := do
  match afterSpelled? text (← ahead) with
  | some (ts, stop) => goOn ts stop
  | none =>
    if text.toList.head?.any startsWord then fail (.expected [.spelled text])
    else failAt (← here) (.expected [.spelled text])

/-- Takes the word or the marks spelled `text` if they come next, and says whether it did. -/
def takes (text : String) : Parser Bool := do
  match afterSpelled? text (← ahead) with
  | some (ts, stop) => goOn ts stop; return true
  | none => return false

/-- Takes the first of the words that comes next, if one does. -/
def takesAny (texts : List String) : Parser Bool := do
  let ts ← ahead
  match texts.findSome? (afterSpelled? · ts) with
  | some (ts, stop) => goOn ts stop; return true
  | none => return false

/-- Takes a word, be it a keyword. -/
def anyName : Parser Name := do
  match ← ahead with
  | .word name _ stop :: ts => goOn ts stop; return name
  | _ => fail (.expected [.identifier])

def name : Parser Name := do
  match ← ahead with
  | .word name _ stop :: ts =>
    if keywords.contains name.text then fail (.keyword name.text) else goOn ts stop; return name
  | _ => fail (.expected [.identifier])

/-- Takes a word, be it a keyword, for its text. -/
def word : Parser String := return (← anyName).text

/-- Takes an identifier for its text. -/
def identifier : Parser String := return (← name).text

def lifetime : Parser Unit := do
  match ← ahead with
  | .lifetime _ _ stop :: ts => goOn ts stop
  | _ => fail (.expected [.lifetime])

def lifetimeIfAny : Parser Unit := do if seesLifetime (← ahead) then lifetime

def literal : Parser Literal := do
  match literalAhead? (← ahead) with
  | some (l, _, ts, stop) => goOn ts stop; return l
  | none => fail (.expected [.literal])

/-- Takes a group with the delimiter and reads its tokens. -/
def within (d : Delimiter) (p : Parser α) : Parser α := do
  let s ← get
  match s.rest with
  | .group d' inner _ close stop :: rest =>
    if d' = d then
      set { s with rest := inner, scope := close, inside := some d }
      let a ← p
      let stray := (← get).firstStray
      set { s with rest := rest, stop := stop, afterBrace := d == Delimiter.brace, stray := stray }
      return a
    else fail (.expected [.group d])
  | _ => fail (.expected [.group d])

/-- Takes any group, for what it holds. -/
def anyGroup : Parser (Delimiter × List Token × Place) := do
  match ← ahead with
  | .group d inner _ close stop :: rest =>
    goOn rest stop
    modify fun s => { s with afterBrace := d == Delimiter.brace }
    return (d, inner, close)
  | _ => fail .noDelimiter

/-- Takes all tokens of the current group. -/
def anything : Parser Unit := modify fun s => { s with rest := [] }

/-- Reads ahead without taking anything. The state reached is part of the answer. -/
def peek (p : Parser α) : Parser (α × State) := do p.run (← get)

/-- Reads on if that goes well, and takes nothing otherwise. -/
def attempt (p : Parser α) : Parser (Option α) := do
  match p.run (← get) with
  | .ok (a, s) => set s; return some a
  | .error _ => return none

/-- The text from a place to the last token taken. -/
def spanFrom (start : Place) : Parser Span := do return ⟨start, (← get).stop⟩

/-- A node that starts at a place and stops at the last token taken. -/
def node (form : Form) (start : Place) (children : List Node) : Parser Node := do
  return .mk form (← spanFrom start) children

/-! ### Repetition. Each turn takes a token or ends, so the number of tokens bounds the turns. -/

/-- A bound on the number of turns. -/
def turns : Parser Nat := do return (← ahead).length + 1

/-- Goes on reading things with a separator between them. -/
def separatedFrom (sep : String) (stop : List Token → Bool) (p : Parser α) :
    Nat → Parser (List α)
  | 0 => return []
  | fuel + 1 => do
    if stop (← ahead) then return []
    let a ← p
    if stop (← ahead) then return [a]
    take sep
    return a :: (← separatedFrom sep stop p fuel)

/-- Reads things with a separator between them and perhaps after the last, until `stop` holds. -/
def separated (sep : String) (stop : List Token → Bool) (p : Parser α) : Parser (List α) := do
  separatedFrom sep stop p (← turns)

/-- Reads things with a comma between them, up to the end of the group. -/
def commas (p : Parser α) : Parser (List α) := separated "," List.isEmpty p

/-- Goes on reading things that a separator announces. -/
def chainedFrom (sep : String) (stop : List Token → Bool) (p : Parser α) :
    Nat → Parser (List α)
  | 0 => return []
  | fuel + 1 => do
    if stop (← ahead) then return []
    let a ← p
    if ← takes sep then return a :: (← chainedFrom sep stop p fuel)
    return [a]

/-- Reads things with a separator between them until `stop` holds or no separator follows. -/
def chained (sep : String) (stop : List Token → Bool) (p : Parser α) : Parser (List α) := do
  chainedFrom sep stop p (← turns)

/-- Goes on reading things while `more` holds. -/
def manyFrom (more : List Token → Bool) (p : Parser α) : Nat → Parser (List α)
  | 0 => return []
  | fuel + 1 => do
    if more (← ahead) then return (← p) :: (← manyFrom more p fuel)
    return []

/-- Reads things while `more` holds before each. -/
def many (more : List Token → Bool) (p : Parser α) : Parser (List α) := do
  manyFrom more p (← turns)

/-- Reads things up to the end of the group. -/
def all (p : Parser α) : Parser (List α) := many (!·.isEmpty) p

/-- Reads all tokens of a group that closes at `scope`; a token left over is a fault. -/
def complete (p : Parser α) (ts : List Token) (scope : Place) : Except Fault α :=
  match p.run (.ofTokens ts scope) with
  | .ok (a, s) =>
    match s.firstStray with
    | none => .ok a
    | some stray => .error ⟨.leftover stray.inside, stray.place, false⟩
  | .error f => .error f

end Parser

end Retrace.Source
