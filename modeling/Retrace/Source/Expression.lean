import Retrace.Source.Pattern
/-!
Expressions. Operations are read by precedence; a comparison takes no further comparison, and a
range takes no further operation at all.
-/
namespace Retrace.Source

open Source.Parser Text

variable (g : Grammar)

/-! ### Operators -/

/-- The operators between two operands, the longer spellings first. -/
def operators : List (String × Precedence) :=
  [("+=", .assign), ("-=", .assign), ("*=", .assign), ("/=", .assign), ("%=", .assign),
    ("^=", .assign), ("&=", .assign), ("|=", .assign), ("<<=", .assign), (">>=", .assign),
    ("&&", .and), ("||", .or), ("<<", .shift), (">>", .shift), ("==", .compare), ("<=", .compare),
    ("!=", .compare), (">=", .compare), ("+", .sum), ("-", .sum), ("*", .product), ("/", .product),
    ("%", .product), ("^", .bitXor), ("&", .bitAnd), ("|", .bitOr), ("<", .compare),
    (">", .compare)]

def operator? (ts : List Token) : Option (String × Precedence) :=
  operators.find? fun (text, _) => sees text ts

/-- Whether an equals sign comes next that assigns. -/
def seesAssign (ts : List Token) : Bool := sees "=" ts && !sees "=>" ts

/-- The precedence of the operation that comes next. -/
def nextPrecedence (ts : List Token) : Precedence :=
  match operator? ts with
  | some (_, p) => p
  | none =>
    if seesAssign ts then .assign
    else if sees ".." ts then .range
    else if sees "as" ts then .cast
    else .least

/-- Goes on with what binds tighter than the operation whose right operand is read. -/
def operandFrom (structs : Bool) (p : Precedence) : Nat → Node → Parser Node
  | 0, right => return right
  | fuel + 1, right => do
    let ts ← ahead
    let next := nextPrecedence ts
    if p.rank < next.rank || next == p && p == .assign then
      let right ← g.climb structs next right
      if (← ahead).length = ts.length then return right
      operandFrom structs p fuel right
    else return right

def operand (structs : Bool) (p : Precedence) : Parser Node := do
  let right ← g.unary structs
  operandFrom g structs p (← turns) right

/-- Whether what comes next cannot be the upper end of a range. -/
def endsRange (structs : Bool) (ts : List Token) : Bool :=
  ts.isEmpty || seesAny [",", ";"] ts || sees "." ts && !sees ".." ts || seesAny ["?", "=>"] ts ||
    !structs && seesGroup .brace ts ||
    seesAny ["=", "+", "/", "%", "^", ">", "<=", "!=", "-=", "*=", "&=", "|=", "<<=", "as"] ts

/-- The limits and the upper end of a range. -/
def rangeEnd (structs : Bool) : Parser (List Node) := do
  let closed ← limits false
  if !closed && endsRange structs (← ahead) then return []
  return [← operand g structs .range]

/-- A cast may not be followed by what would bind tighter than it. -/
def checkCast : Parser Unit := do
  let ts ← ahead
  let next := ts.drop 1
  if sees "." ts && !sees ".." ts then
    if sees "await" next then fail (.castFollowedBy "`.await`")
    if seesIdentifier next && (seesGroup .paren (ts.drop 2) || sees "::" (ts.drop 2)) then
      fail (.castFollowedBy "a method call")
    fail (.castFollowedBy "a field access")
  if sees "?" ts then fail (.castFollowedBy "`?`")
  if seesGroup .bracket ts then fail (.castFollowedBy "indexing")
  if seesGroup .paren ts then fail (.castFollowedBy "a function call")

/-- Goes on with the operations that bind at least as tightly as `base`. -/
def climbFrom (structs : Bool) (base : Precedence) : Nat → Node → Parser Node
  | 0, left => return left
  | fuel + 1, left => do
    if left.form == .range then return left
    let ts ← ahead
    let start := left.span.start
    match operator? ts with
    | some (text, p) =>
      if p.rank < base.rank then return left
      if p == .compare && left.form == .comparison then fail .chainedComparison
      take text
      let right ← operand g structs p
      let form := if p == .compare then Form.comparison else .joined
      climbFrom structs base fuel (← node form start [left, right])
    | none =>
      if base.rank ≤ Precedence.assign.rank && seesAssign ts then
        take "="
        let right ← operand g structs .assign
        climbFrom structs base fuel (← node .joined start [left, right])
      else if base.rank ≤ Precedence.range.rank && sees ".." ts then
        let upper ← rangeEnd g structs
        climbFrom structs base fuel (← node .range start (left :: upper))
      else if base.rank ≤ Precedence.cast.rank && sees "as" ts then
        take "as"
        let ty ← g.type false
        checkCast
        climbFrom structs base fuel (← node .joined start (left :: ty.nodes))
      else return left

/-- An expression whose first operand is read. -/
def climb (structs : Bool) (base : Precedence) (left : Node) : Parser Node := do
  climbFrom g structs base (← turns) left

def expression (structs : Bool) : Parser Node := do
  let left ← g.unary structs
  climb g structs .least left

/-! ### What follows an operand -/

/-- The fields of nested tuples that a decimal number spells, and whether a point is left over. -/
def nestedIndex (text : List Char) : Except Cause Bool := do
  let trailing := text.getLast? = some '.'
  for part in splitAt '.' (if trailing then text.dropLast else text) do
    if part.head? = some '-' then
      match Literal.ofText (part.drop 1) with
      | .whole .. => throw .signedInteger
      | _ => throw .noInteger
    match Literal.ofText part with
    | .whole n suffix =>
      if !suffix.isEmpty then throw .suffixedInteger
      if 0xFFFFFFFF < n then throw .wideInteger
    | _ => throw .noInteger
  return trailing

/-- The text of the decimal number that comes next, the tokens after it and where it stops. -/
def decimalAhead? : List Token → Option (List Char × List Token × Nat)
  | .literal text _ stop :: ts =>
    match Literal.ofText text with
    | .decimal .. => some (text, ts, stop)
    | _ => none
  | .mark '-' _ _ _ :: .literal text _ stop :: ts =>
    match Literal.ofText text with
    | .decimal .. => some ('-' :: text, ts, stop)
    | _ => none
  | _ => none

def callArguments : Parser (List Node) := within .paren (commas (g.expression true))

/-- What a point leads to: a field, a method, or waiting for a result. -/
def selected (e : Node) : Parser Node := do
  let start := e.span.start
  if ← takes "await" then return ← node .other start [e]
  let place ← here
  match ← member with
  | none => node .other start [e]
  | some name =>
    let turbofish ←
      if sees "::" (← ahead) then do
        let args ← angledArguments g
        pure (some args.flatten)
      else pure none
    if turbofish.isSome || seesGroup .paren (← ahead) then
      let args ← callArguments g
      node (.method name place.line) start (e :: turbofish.getD [] ++ args)
    else node .other start [e]

/-- Goes on with calls, indexes, fields, methods and question marks after an operand. -/
def trailersFrom : Nat → Node → Parser Node
  | 0, e => return e
  | fuel + 1, e => do
    let ts ← ahead
    let start := e.span.start
    let open' := e.form != .range
    if seesGroup .paren ts then
      let args ← callArguments g
      let callee := match e.form with
        | .path _ last => some last
        | _ => none
      trailersFrom fuel (← node (.call callee) start (e :: args))
    else if sees "." ts && !sees ".." ts && open' then
      take "."
      match decimalAhead? (← ahead) with
      | some (text, ts, stop) =>
        match nestedIndex text with
        | .error cause => failAt (← here) cause
        | .ok trailing =>
          goOn ts stop
          let e ← node .other start [e]
          trailersFrom fuel (← if trailing then selected g e else pure e)
      | none => trailersFrom fuel (← selected g e)
    else if seesGroup .bracket ts then
      let index ← within .bracket (g.expression true)
      trailersFrom fuel (← node .other start [e, index])
    else if sees "?" ts && open' then
      take "?"
      trailersFrom fuel (← node .other start [e])
    else return e

/-- What follows an operand. -/
def trailers (e : Node) : Parser Node := do trailersFrom g (← turns) e

/-! ### Expressions with a body -/

/-- Goes on reading conditions and the blocks they guard. -/
def branchFrom : Nat → Parser Node
  | 0 => fail .noExpression
  | fuel + 1 => do
    let start ← here
    take "if"
    let condition ← g.expression false
    let returns := match ← ahead with
      | .group _ inner _ _ _ :: _ => Token.anyMentions "return" inner
      | _ => false
    let body ← block g
    if !(← takes "else") then return ← node (.branch returns) start [condition, body]
    let ts ← ahead
    let otherwise ←
      if sees "if" ts then branchFrom fuel
      else if seesGroup .brace ts then block g
      else failAmong [.spelled "if", .group .brace]
    node (.branch returns) start [condition, body, otherwise]

/-- A condition and the blocks it chooses from. -/
def branch : Parser Node := do branchFrom g (← turns)

/-- A loop over the elements of a value; its label may start before it. -/
def forLoop (start : Place) : Parser Node := do
  take "for"
  let p ← alternatives g
  take "in"
  let subject ← g.expression false
  let (attributes, body) ← attributedBody g
  node .loop start (attributes ++ p.nodes ++ [subject, body])

def whileLoop (start : Place) : Parser Node := do
  take "while"
  let condition ← g.expression false
  let (attributes, body) ← attributedBody g
  node .loop start (attributes ++ [condition, body])

def endlessLoop (start : Place) : Parser Node := do
  take "loop"
  let (attributes, body) ← attributedBody g
  node .loop start (attributes ++ [body])

def keywordBlock (start : Place) : Parser Node := do
  let (attributes, body) ← attributedBody g
  node .block start (attributes ++ [body])

/-- A labelled loop or block. -/
def labelled : Parser Node := do
  let start ← here
  lifetime
  take ":"
  let ts ← ahead
  if sees "while" ts then whileLoop g start
  else if sees "for" ts then forLoop g start
  else if sees "loop" ts then endlessLoop g start
  else if seesGroup .brace ts then keywordBlock g start
  else fail .noLoopOrBlock

def arm : Parser (List Node) := do
  let attributes ← outerAttributes g
  let p ← alternatives g
  let guard ← if ← takes "if" then do pure [← g.expression true] else pure []
  take "=>"
  let body ← g.early
  if !body.endsStatement && !(← ahead).isEmpty then take ","
  else
    let _ ← takes ","
  return attributes ++ p.nodes ++ guard ++ [body]

def matching : Parser Node := do
  let start ← here
  take "match"
  let subject ← g.expression false
  let (attributes, arms) ← within .brace do
    let attributes ← innerAttributes g
    return (attributes, ← all (arm g))
  node .block start (attributes ++ subject :: arms.flatten)

/-- An expression where a statement may end: one with a body is complete in itself, unless a point
or a question mark follows. -/
def earlyExpression : Parser Node := do
  let start ← here
  let attributes ← outerAttributes g
  let place ← here
  let ts ← ahead
  let e ←
    if sees "if" ts then branch g
    else if sees "while" ts then whileLoop g place
    else if sees "for" ts && !seesGenerics (ts.drop 1) then forLoop g place
    else if sees "loop" ts then endlessLoop g place
    else if sees "match" ts then matching g
    else if sees "try" ts && seesGroup .brace (ts.drop 1) then do
      take "try"
      node .block place [← block g]
    else if sees "unsafe" ts then do
      take "unsafe"
      keywordBlock g place
    else if sees "const" ts && seesGroup .brace (ts.drop 1) then do
      take "const"
      keywordBlock g place
    else if seesGroup .brace ts then keywordBlock g place
    else if seesLifetime ts then labelled g
    else g.unary true
  let attached (e : Node) := if attributes.isEmpty then e else e.attach attributes start
  if !e.endsStatement then return ← climb g true .least (attached e)
  let ts ← ahead
  if sees "." ts && !sees ".." ts || sees "?" ts then
    let e ← trailers g e
    climb g true .least (attached e)
  else return attached e

/-! ### Expressions without operators -/

def closureParam : Parser (List Node) := do
  let attributes ← outerAttributes g
  let p ← g.pattern
  if ← takes ":" then return attributes ++ p.nodes ++ (← g.type true).nodes
  return attributes ++ p.nodes

def closure (structs : Bool) : Parser Node := do
  let start ← here
  let lifetimes ← binderIfAny g
  for keyword in ["const", "static", "async", "move"] do
    let _ ← takes keyword
  take "|"
  let params ← separated "," (sees "|") (closureParam g)
  take "|"
  let rest ←
    if ← takes "->" then do
      let ty ← g.type true
      pure (ty.nodes ++ [← block g])
    else do pure [← g.expression structs]
  node .other start (lifetimes ++ params.flatten ++ rest)

/-- A field of a structure with its value. -/
def fieldValue : Parser (List Node) := do
  let attributes ← outerAttributes g
  let start ← here
  match ← member with
  | none =>
    take ":"
    return attributes ++ [← g.expression true]
  | some name =>
    let self ← node (.path (some name) name) start []
    if ← takes ":" then return attributes ++ [← g.expression true]
    return attributes ++ [self]

def fieldValues : Nat → Parser (List Node)
  | 0 => return []
  | fuel + 1 => do
    let ts ← ahead
    if ts.isEmpty then return []
    if ← takes ".." then
      if (← ahead).isEmpty then return []
      return [← g.expression true]
    let field ← fieldValue g
    if (← ahead).isEmpty then return field
    take ","
    return field ++ (← fieldValues fuel)

/-- A path, an invocation, or a structure. -/
def pathExpression (structs : Bool) : Parser Node := do
  let start ← here
  let p ← path g true
  let ts ← ahead
  if !p.qualified && sees "!" ts && !sees "!=" ts && p.isPlain then invocation g p start
  else if structs && seesGroup .brace ts then
    let fields ← within .brace do fieldValues g (← turns)
    node .other start (p.nodes ++ fields)
  else node (.path p.whole? p.last) start p.nodes

/-- Goes on reading the elements of a tuple or an array after the first. -/
def furtherElements : Nat → Parser (List Node)
  | 0 => return []
  | fuel + 1 => do
    if (← ahead).isEmpty then return []
    take ","
    if (← ahead).isEmpty then return []
    let e ← g.expression true
    return e :: (← furtherElements fuel)

/-- An expression in parentheses, or a tuple. -/
def parenthesizedOrTuple : Parser Node := do
  let start ← here
  let (form, elements) ← within .paren do
    if (← ahead).isEmpty then return (Form.other, [])
    let first ← g.expression true
    if (← ahead).isEmpty then return (Form.parenthesized, [first])
    return (Form.other, first :: (← furtherElements g (← turns)))
  node form start elements

/-- An array, given by its elements or by one element and a length. -/
def array : Parser Node := do
  let start ← here
  let (form, elements) ← within .bracket do
    if (← ahead).isEmpty then return (Form.array, [])
    let first ← g.expression true
    let ts ← ahead
    if ts.isEmpty || sees "," ts then
      return (Form.array, first :: (← furtherElements g (← turns)))
    if ← takes ";" then return (Form.other, [first, ← g.expression true])
    fail .noCommaOrSemicolon
  node form start elements

def seesExpression (ts : List Token) : Bool :=
  seesWord ts && !sees "as" ts || seesGroup .paren ts || seesGroup .bracket ts ||
    seesGroup .brace ts || seesLiteral ts || sees "!" ts && !sees "!=" ts ||
    sees "-" ts && !sees "-=" ts && !sees "->" ts || sees "*" ts && !sees "*=" ts ||
    sees "|" ts && !sees "|=" ts || sees "&" ts && !sees "&=" ts || sees ".." ts ||
    sees "<" ts && !sees "<=" ts && !sees "<<=" ts || sees "::" ts || seesLifetime ts ||
    sees "#" ts

/-- The value after a keyword that may do without one. -/
def valueIfAny : Parser (List Node) := do
  if seesExpression (← ahead) then return [← g.expression true]
  return []

/-- Leaving a loop or a block. -/
def leave (structs : Bool) : Parser Node := do
  let start ← here
  take "break"
  let ts ← ahead
  if seesLifetime ts then
    let place ← here
    if sees ":" (ts.drop 1) then
      let _ ← g.expression true
      failAt place .unparenthesizedLabel
    lifetime
  let ts ← ahead
  let value ←
    if seesExpression ts && (structs || !seesGroup .brace ts) then do pure [← g.expression true]
    else pure []
  node .other start value

/-- A pattern that a value is tried against. -/
def letCondition (structs : Bool) : Parser Node := do
  let start ← here
  take "let"
  let p ← alternatives g
  take "="
  let left ← g.unary structs
  let value ← climb g structs .compare left
  node .other start (p.nodes ++ [value])

/-- A form that only a compiler's own library writes, kept as text. -/
def builtin : Parser Node := do
  let start ← here
  take "builtin"
  take "#"
  let _ ← identifier
  within .paren anything
  node .verbatim start []

def seesClosure (ts : List Token) : Bool :=
  let next := ts.drop 1
  seesAny ["|", "move", "static"] ts || sees "for" ts && seesGenerics next ||
    sees "const" ts && !seesGroup .brace next || sees "async" ts && seesAny ["|", "move"] next

def seesPath (ts : List Token) : Bool :=
  seesIdentifier ts || seesAny ["::", "<", "self", "Self", "super", "crate"] ts ||
    sees "try" ts && seesAny ["!", "::"] (ts.drop 1)

/-- An expression without operators and without what may follow an operand. -/
def atom (structs : Bool) : Parser Node := do
  let start ← here
  let ts ← ahead
  let next := ts.drop 1
  if seesLiteral ts then
    let l ← literal
    node (.literal l) start []
  else if sees "async" ts &&
      (seesGroup .brace next || sees "move" next && seesGroup .brace (ts.drop 2)) then
    take "async"
    let _ ← takes "move"
    node .other start [← block g]
  else if sees "try" ts && seesGroup .brace next then
    take "try"
    node .block start [← block g]
  else if seesClosure ts then closure g structs
  else if sees "builtin" ts && sees "#" next then builtin
  else if seesPath ts then pathExpression g structs
  else if seesGroup .paren ts then parenthesizedOrTuple g
  else if sees "break" ts then leave g structs
  else if ← takes "continue" then
    lifetimeIfAny
    node .other start []
  else if ← takes "return" then node .exit start (← valueIfAny g)
  else if ← takes "become" then
    let _ ← g.expression true
    node .verbatim start []
  else if seesGroup .bracket ts then array g
  else if sees "let" ts then letCondition g structs
  else if sees "if" ts then branch g
  else if sees "while" ts then whileLoop g start
  else if sees "for" ts then forLoop g start
  else if sees "loop" ts then endlessLoop g start
  else if sees "match" ts then matching g
  else if ← takes "yield" then node .other start (← valueIfAny g)
  else if ← takes "unsafe" then keywordBlock g start
  else if ← takes "const" then keywordBlock g start
  else if seesGroup .brace ts then keywordBlock g start
  else if sees ".." ts then node .range start (← rangeEnd g structs)
  else if ← takes "_" then node .other start []
  else if seesLifetime ts then labelled g
  else fail .noExpression

/-- An operand with the operators before it. -/
def unary (structs : Bool) : Parser Node := do
  let start ← here
  let attributes ← outerAttributes g
  let ts ← ahead
  if ← takes "&" then
    let ts ← ahead
    let raw := sees "raw" ts && seesAny ["mut", "const"] (ts.drop 1)
    if raw then take "raw"
    if !(← takes "mut") && raw then take "const"
    let e ← g.unary structs
    node (if raw then .other else .reference) start (attributes ++ [e])
  else if ← takesAny ["*", "!", "-"] then
    let e ← g.unary structs
    node (if sees "-" ts then .negation else .other) start (attributes ++ [e])
  else
    let e ← atom g structs
    let e ← trailers g e
    if attributes.isEmpty then return e
    if e.form == .range then failAt e.span.start (.leftover none)
    return e.attach attributes start

end Retrace.Source
