import Retrace.Source.Type
/-!
Patterns.
-/
namespace Retrace.Source

open Source.Parser

variable (g : Grammar)

/-- A pattern of which nothing but its nodes matters. -/
def plainPattern (nodes : List Node) : Pattern := ⟨.other, nodes⟩

/-- Whether a bar between alternatives comes next. -/
def seesBar (ts : List Token) : Bool := sees "|" ts && !sees "||" ts && !sees "|=" ts

/-- Alternatives, of which the first may have a bar before it. -/
def alternatives : Parser Pattern := do
  let led ← takes "|"
  let first ← g.pattern
  let others ← many seesBar do
    take "|"
    g.pattern
  if led || !others.isEmpty then
    return plainPattern (first.nodes ++ others.flatMap Pattern.nodes)
  return first

/-- Whether the name of a field comes next: an identifier or a number. -/
def seesNumber (ts : List Token) : Bool :=
  match literalAhead? ts with
  | some (.whole .., _) => true
  | _ => false

/-- The place of a field in a tuple. -/
def index : Parser Unit := do
  let start ← here
  match literalAhead? (← ahead) with
  | some (.whole n suffix, negative, ts, stop) =>
    goOn ts stop
    if !suffix.isEmpty then failAt start .suffixedInteger
    if negative then failAt start .signedInteger
    if 0xFFFFFFFF < n then failAt start .wideInteger
  | _ => fail .noInteger

/-- The name of a field, if it has one and is not given by its place. -/
def member : Parser (Option String) := do
  let ts ← ahead
  if seesIdentifier ts then return some (← identifier)
  if seesNumber ts then
    index
    return none
  fail .noMember

/-- The limits of a range, and whether the upper bound belongs to it. Three dots are allowed on
request. -/
def limits (threeDots : Bool) : Parser Bool := do
  let ts ← ahead
  if sees "..=" ts then
    take "..="
    return true
  if sees "..." ts then
    if threeDots then
      take "..."
      return true
    failAmong [.spelled "..", .spelled "..="]
  if sees ".." ts then
    take ".."
    return false
  failAmong [.spelled ".."]

/-- The bound of a range pattern, unless what comes next says that there is none. -/
def rangeBound : Parser (Option Node) := do
  let ts ← ahead
  if ts.isEmpty || seesAny ["|", "=", ",", ";", "if"] ts || seesColon ts then return none
  let start ← here
  if seesLiteral ts then
    let l ← literal
    return some (← node (.literal l) start [])
  if seesIdentifier ts || seesAny ["::", "<", "self", "Self", "super", "crate"] ts then
    let p ← path g true
    return some (← node (.path p.whole? p.last) start p.nodes)
  if sees "const" ts then
    take "const"
    let (attributes, body) ← attributedBody g
    return some (← node .block start (attributes ++ [body]))
  failAmong [.literal, .identifier, .spelled "::", .spelled "<", .spelled "self", .spelled "Self",
    .spelled "super", .spelled "crate", .spelled "const"]

/-- A range pattern after its lower bound. -/
def rangeFrom (lower : List Node) : Parser Pattern := do
  let start ← here
  let closed ← limits true
  match ← rangeBound g with
  | some upper => return plainPattern (lower ++ [upper])
  | none =>
    if closed then fail .noUpperBound
    return ⟨.openRange start, lower⟩

/-- A range pattern without a lower bound, or the rest of a list. -/
def rangeTo : Parser Pattern := do
  let start ← here
  let closed ← limits false
  match ← rangeBound g with
  | some upper => return ⟨.openRange start, [upper]⟩
  | none =>
    if closed then fail .noUpperBound
    return ⟨.rest, []⟩

/-- A literal, a constant, or a range of them. -/
def literalPattern : Parser Pattern := do
  let lower ← rangeBound g
  if sees ".." (← ahead) then rangeFrom g lower.toList
  else return plainPattern lower.toList

/-- A name, which a pattern for its value may follow. -/
def namePattern : Parser Pattern := do
  let _ ← takes "ref"
  let _ ← takes "mut"
  let name ← if sees "self" (← ahead) then word else identifier
  if ← takes "@" then return ⟨.word name, (← g.pattern).nodes⟩
  return ⟨.word name, []⟩

def fieldPattern : Parser (List Node) := do
  let boxed ← takes "box"
  let byReference ← takes "ref"
  let mutable ← takes "mut"
  if boxed || byReference || mutable then
    let _ ← identifier
    return []
  match ← member with
  | some _ =>
    if sees ":" (← ahead) then
      take ":"
      return (← alternatives g).nodes
    return []
  | none =>
    take ":"
    return (← alternatives g).nodes

def fieldPatterns : Nat → Parser (List Node)
  | 0 => return []
  | fuel + 1 => do
    if (← ahead).isEmpty then return []
    let attributes ← outerAttributes g
    if ← takes ".." then return attributes
    let field ← fieldPattern g
    if (← ahead).isEmpty then return attributes ++ field
    take ","
    return attributes ++ field ++ (← fieldPatterns fuel)

def pathPattern : Parser Pattern := do
  let start ← here
  let p ← path g true
  let ts ← ahead
  if !p.qualified && sees "!" ts && !sees "!=" ts && p.isPlain then
    return plainPattern [← invocation g p start]
  if seesGroup .brace ts then
    let fields ← within .brace do fieldPatterns g (← turns)
    return plainPattern (p.nodes ++ fields)
  if seesGroup .paren ts then
    let elems ← within .paren (commas (alternatives g))
    return plainPattern (p.nodes ++ elems.flatMap Pattern.nodes)
  let self ← node (.path p.whole? p.last) start p.nodes
  if sees ".." ts then rangeFrom g [self]
  else return plainPattern [self]

/-- An element of a list pattern. A range that lacks a bound needs parentheses there. -/
def listElement : Parser Pattern := do
  let p ← alternatives g
  match p.form with
  | .openRange start => failAt start .unparenthesizedRange
  | _ => return p

def patternStarts : List Want :=
  [.identifier, .spelled "::", .spelled "<", .spelled "_", .literal, .spelled "const",
    .spelled "ref", .spelled "mut", .spelled "&", .group .paren, .group .bracket, .spelled "..",
    .spelled "const"]

/-- A pattern without alternatives. -/
def pattern : Parser Pattern := do
  let ts ← ahead
  let next := ts.drop 1
  if seesIdentifier ts &&
      (seesAny ["::", "!", ".."] next || seesGroup .brace next || seesGroup .paren next) ||
      sees "self" ts && sees "::" next || seesAny ["::", "<", "Self", "super", "crate"] ts then
    pathPattern g
  else if ← takes "_" then return plainPattern []
  else if ← takes "box" then
    let _ ← g.pattern
    return plainPattern []
  else if sees "-" ts || seesLiteral ts || sees "const" ts then literalPattern g
  else if seesAny ["ref", "mut", "self"] ts || seesIdentifier ts then namePattern g
  else if ← takes "&" then
    let _ ← takes "mut"
    return plainPattern (← g.pattern).nodes
  else if seesGroup .paren ts then
    let elems ← within .paren (commas (alternatives g))
    return plainPattern (elems.flatMap Pattern.nodes)
  else if seesGroup .bracket ts then
    let elems ← within .bracket (commas (listElement g))
    return plainPattern (elems.flatMap Pattern.nodes)
  else if sees ".." ts && !sees "..." ts then rangeTo g
  else failAmong patternStarts

end Retrace.Source
