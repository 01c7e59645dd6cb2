import Retrace.Source.Expression
/-!
Statements. A statement that is an expression needs a semicolon after it, unless it ends by itself
or is the last one of its block.
-/
namespace Retrace.Source

open Source.Parser

variable (g : Grammar)

/-- Puts attributes before a node, if there are any. -/
def withAttributes (attributes : List Node) (start : Place) (n : Node) : Node :=
  if attributes.isEmpty then n else n.attach attributes start

/-- How an invocation at the start of a statement goes on. -/
inductive InvocationStart where
  | none
  | item
  | braced

/-- Looks for an invocation: one that names something is an item, and one in curly braces that
nothing is selected from is a statement. -/
def invocationStart : Parser InvocationStart := do
  let s ← get
  match plainPath.run s with
  | .error _ => return .none
  | .ok (_, t) =>
    let second := t.rest.drop 1
    let third := t.rest.drop 2
    if !sees "!" t.rest then return .none
    if seesIdentifier second || sees "try" second then return .item
    if seesGroup .brace second && !(sees "." third && !sees ".." third || sees "?" third) then
      return .braced
    return .none

def seesItem (ts : List Token) : Bool :=
  let second := ts.drop 1
  let third := ts.drop 2
  seesAny ["pub", "extern", "use", "fn", "mod", "type", "struct", "enum", "trait", "impl", "macro"]
      ts ||
    sees "crate" ts && !sees "::" second ||
    sees "static" ts &&
      (sees "mut" second ||
        seesIdentifier second && !(sees "async" second && seesAny ["move", "|"] third)) ||
    sees "const" ts &&
      !(seesGroup .brace second || sees "static" second ||
        sees "async" second && !seesAny ["unsafe", "extern", "fn"] third ||
        seesAny ["move", "|"] second) ||
    sees "unsafe" ts && !seesGroup .brace second ||
    sees "async" ts && seesAny ["unsafe", "extern", "fn"] second ||
    sees "union" ts && seesIdentifier second ||
    sees "auto" ts && sees "trait" second ||
    sees "default" ts && seesAny ["unsafe", "impl"] second

/-- A declaration of variables, given its attributes. -/
def declaration (attributes : List Node) (start : Place) : Parser Node := do
  take "let"
  let p ← g.pattern
  let ty ← if ← takes ":" then g.type true else pure (plainType [])
  let value ←
    if ← takes "=" then do
      let e ← g.expression true
      if !(← get).afterBrace && sees "else" (← ahead) then
        take "else"
        pure [e, ← block g]
      else pure [e]
    else pure []
  take ";"
  node .other start (attributes ++ p.nodes ++ ty.nodes ++ value)

/-- A statement, and whether a semicolon is missing after it. -/
def statement : Parser (Node × Bool) := do
  let s ← get
  let start ← here
  let attributes ← outerAttributes g
  let place ← here
  let kind ← invocationStart
  if kind matches .braced then
    let p ← plainPath
    let n ← invocation g p place
    let _ ← takes ";"
    return (withAttributes attributes start n, false)
  let ts ← ahead
  if sees "let" ts then return (← declaration g attributes start, false)
  if seesItem ts || kind matches .item then
    set s
    return (← g.item, false)
  let e ← g.early
  let ended ← takes ";"
  let complete := match e.form with
    | .invocation _ _ _ _ braced => braced
    | _ => e.endsStatement
  return (withAttributes attributes start e, !ended && !complete)

def statementsFrom : Nat → Parser (List Node)
  | 0 => return []
  | fuel + 1 => do
    let _ ← many (sees ";") (take ";")
    if (← ahead).isEmpty then return []
    let (n, missing) ← statement g
    if (← ahead).isEmpty then return [n]
    if missing then fail .noSemicolon
    return n :: (← statementsFrom fuel)

def statements : Parser (List Node) := do statementsFrom g (← turns)

end Retrace.Source
