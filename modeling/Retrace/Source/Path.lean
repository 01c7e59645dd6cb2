import Retrace.Source.Grammar
/-!
Paths, their generic arguments, and attributes.
-/
namespace Retrace.Source

open Source.Parser

variable (g : Grammar)

/-! ### Plain paths -/

/-- The keywords that may be a segment of a plain path. -/
def pathKeywords : List String := ["super", "self", "Self", "crate"]

def seesPlainSegment (ts : List Token) : Bool := seesIdentifier ts || seesAny pathKeywords ts

/-- Goes on reading the segments of a plain path. -/
def plainSegments : Nat → Parser (List Segment)
  | 0 => return []
  | fuel + 1 => do
    if !seesPlainSegment (← ahead) then fail .noPathSegment
    let s := ⟨← word, .none⟩
    if ← takes "::" then return s :: (← plainSegments fuel)
    return [s]

def plainPath : Parser Path := do
  let rooted ← takes "::"
  if !seesPlainSegment (← ahead) then
    let _ ← identifier
  return ⟨false, rooted, ← plainSegments (← turns), []⟩

/-! ### Attributes -/

/-- What stands in the brackets of an attribute; only a value given with an equals sign counts. -/
def attributeBody : Parser (List Node) := do
  if !(← takes "unsafe") then
    let _ ← plainPath
  let ts ← ahead
  match ts with
  | .group .. :: _ => let _ ← anyGroup; return []
  | _ =>
    if sees "=" ts && !sees "==" ts && !sees "=>" ts then
      take "="
      match literalAhead? (← ahead) with
      | some (l, _, [], stop) =>
        let start ← here
        goOn [] stop
        return [← node (.literal l) start []]
      | _ =>
        let ts ← ahead
        if sees "#" ts && seesGroup .bracket (ts.drop 1) then fail .nestedAttribute
        return [← g.expression true]
    else return []

/-- An attribute of what follows it. -/
def outerAttribute : Parser Node := do
  let start ← here
  take "#"
  let body ← within .bracket (attributeBody g)
  node .attribute start body

/-- An attribute of what encloses it. -/
def innerAttribute : Parser Node := do
  let start ← here
  take "#"
  take "!"
  let body ← within .bracket (attributeBody g)
  node .attribute start body

def outerAttributes : Parser (List Node) := many (sees "#") (outerAttribute g)

def innerAttributes : Parser (List Node) :=
  many (fun ts => sees "#" ts && sees "!" (ts.drop 1)) (innerAttribute g)

/-! ### Generic arguments -/

/-- Statements in curly braces. -/
def block : Parser Node := do
  let start ← here
  let statements ← within .brace g.statements
  node .block start statements

/-- Statements in curly braces, which may start with attributes. The attributes come first. -/
def attributedBody : Parser (List Node × Node) := do
  let start ← here
  let (attributes, statements) ← within .brace do
    let attributes ← innerAttributes g
    return (attributes, ← g.statements)
  return (attributes, ← node .block start statements)

/-- A block that stands as an expression. -/
def blockExpression : Parser Node := do
  let start ← here
  let (attributes, body) ← attributedBody g
  node .block start (attributes ++ [body])

/-- The value of a constant argument. -/
def constArgument : Parser Node := do
  let start ← here
  let ts ← ahead
  if seesLiteral ts then
    let l ← literal
    node (.literal l) start []
  else if seesIdentifier ts then
    let name ← identifier
    node (.path (some name) name) start []
  else if seesGroup .brace ts then blockExpression g
  else failAmong []

/-- Whether a constant argument comes next that is no type. -/
def seesConst (ts : List Token) : Bool := seesLiteral ts || seesGroup .brace ts

/-- A generic argument: a lifetime, a constant, a type, or what an associated item is bound to. -/
def genericArgument : Parser (List Node) := do
  let ts ← ahead
  if seesLifetime ts && !sees "+" (ts.drop 1) then
    lifetime
    return []
  if seesConst ts then return [← constArgument g]
  let ty ← g.type true
  match ty.form with
  | .path p =>
    match p.qualified, p.rooted, p.segments with
    | false, false, [s] =>
      if s.arguments = .parenthesized then return ty.nodes
      if ← takes "=" then
        if seesConst (← ahead) then return ty.nodes ++ [← constArgument g]
        return ty.nodes ++ (← g.type true).nodes
      if ← takes ":" then
        let bounds ← chained "+" (seesAny [",", ">"]) (g.bound ⟨false, true⟩)
        return ty.nodes ++ bounds.flatMap (·.2)
      return ty.nodes
    | _, _, _ => return ty.nodes
  | _ => return ty.nodes

/-- The nodes of each of the generic arguments in angle brackets. -/
def angledArguments : Parser (List (List Node)) := do
  let _ ← takes "::"
  take "<"
  let args ← separated "," (sees ">") (genericArgument g)
  take ">"
  return args

/-- Generic arguments in parentheses, and whether they allow an associated type to follow: no
result type, or one in parentheses. -/
def parenthesizedArguments : Parser (List Node × Bool) := do
  let inputs ← within .paren (commas (g.type true))
  let nodes := inputs.flatMap TypeShape.nodes
  if ← takes "->" then
    let result ← g.type false
    let closed := match result.form with
      | .parenthesized => true
      | _ => false
    return (nodes ++ result.nodes, closed)
  return (nodes, true)

/-! ### Paths -/

/-- A segment of a path. In an expression its arguments need a double colon before them. -/
def segment (inExpression : Bool) : Parser (Segment × List Node) := do
  let ts ← ahead
  if seesAny ["super", "self", "crate", "try"] ts then return (⟨← word, .none⟩, [])
  let name ← if sees "Self" ts then word else identifier
  let ts ← ahead
  if !inExpression && sees "<" ts && !sees "<=" ts && !sees "<<=" ts ||
      sees "::" ts && sees "<" (ts.drop 2) then
    let args ← angledArguments g
    return (⟨name, if args.isEmpty then .empty else .angled⟩, args.flatten)
  return (⟨name, .none⟩, [])

/-- Whether a further segment follows. -/
def seesFurtherSegment (ts : List Token) : Bool := sees "::" ts && !seesGroup .paren (ts.drop 2)

/-- The further segments of a path. -/
def furtherSegments (inExpression : Bool) (more : List Token → Bool) :
    Parser (List (Segment × List Node)) :=
  many more do
    take "::"
    segment g inExpression

def Path.extend (p : Path) (segments : List (Segment × List Node)) : Path :=
  { p with
    segments := p.segments ++ segments.map (·.1), nodes := p.nodes ++ segments.flatMap (·.2) }

/-- A path that no type qualifies. -/
def unqualifiedPath (inExpression : Bool) : Parser Path := do
  let rooted ← takes "::"
  let first ← segment g inExpression
  let rest ← furtherSegments g inExpression seesFurtherSegment
  return Path.extend ⟨false, rooted, [], []⟩ (first :: rest)

/-- A path, which a type in angle brackets may qualify. -/
def path (inExpression : Bool) : Parser Path := do
  if !(← takes "<") then return ← unqualifiedPath g inExpression
  let self ← g.type true
  let base : Path ← if ← takes "as" then unqualifiedPath g false else pure ⟨false, true, [], []⟩
  take ">"
  take "::"
  let first ← segment g inExpression
  let rest ← furtherSegments g inExpression (sees "::")
  let p := base.extend (first :: rest)
  return { p with qualified := true, nodes := self.nodes ++ p.nodes }

/-- The body of an invocation whose path starts at a place, read as expressions if it can be. -/
def invocationBody (p : Path) (start : Place) : Parser Node := do
  let (d, body, close) ← anyGroup
  let braced := d == .brace
  match complete (commas (g.expression true)) body close with
  | .ok args => node (.invocation p.whole? p.last start.line true braced) start args
  | .error _ => node (.invocation p.whole? p.last start.line false braced) start []

/-- The invocation of a path that starts at a place. -/
def invocation (p : Path) (start : Place) : Parser Node := do
  take "!"
  invocationBody g p start

end Retrace.Source
