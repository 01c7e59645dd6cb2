import Retrace.Source.Statement
/-!
Items. An item that only a macro could make sense of is kept as text, without nodes of its own.
-/
namespace Retrace.Source

open Source.Parser

variable (g : Grammar)

/-! ### Visibility and signatures -/

/-- The visibility of an item, and whether one is given. -/
def visibility : Parser Bool := do
  if !(← takes "pub") then return false
  match ← ahead with
  | .group .paren inner _ _ _ :: _ =>
    if seesAny ["crate", "self", "super"] inner then
      if inner.length = 1 then
        let _ ← anyGroup
    else if sees "in" inner then
      within .paren do
        take "in"
        let _ ← plainPath
  | _ => pure ()
  return true

/-- The tokens after a word, if it comes next. -/
def afterWord (text : String) (ts : List Token) : List Token :=
  if sees text ts then ts.drop 1 else ts

def seesSignature (safe : Bool) (ts : List Token) : Bool :=
  let ts := afterWord "async" (afterWord "const" ts)
  let ts := if safe && sees "safe" ts then ts.drop 1 else afterWord "unsafe" ts
  let ts :=
    if sees "extern" ts then (if seesText (ts.drop 1) then ts.drop 2 else ts.drop 1) else ts
  sees "fn" ts

/-- The receiver of a method. The place of its keyword is part of the answer. -/
def receiver : Parser (Place × List Node) := do
  let byReference ← takes "&"
  if byReference then lifetimeIfAny
  let _ ← takes "mut"
  let place ← here
  take "self"
  if byReference then return (place, [])
  if ← takes ":" then return (place, (← g.type true).nodes)
  return (place, [])

/-- What a parameter list holds: a receiver, a parameter, or dots for any number of them. -/
inductive Declared where
  | receiver (place : Place)
  | param (p : Param)
  | variadic

/-- A parameter of a routine after its attributes, declared from `start` on. -/
def parameter (start : Place) : Parser (Declared × List Node) := do
  if let some (place, nodes) ← attempt (receiver g) then return (.receiver place, nodes)
  let place ← here
  let ts ← ahead
  match ts with
  | .word _ _ stop :: _ =>
    if seesIdentifier ts && sees "<" (ts.drop 1) then
      let ty ← g.type true
      return (.param ⟨.pattern ⟨place, stop⟩, ← spanFrom start⟩, ty.nodes)
  | _ => pure ()
  let p ← g.pattern
  let span ← spanFrom place
  take ":"
  if ← takes "..." then return (.variadic, p.nodes)
  let ty ← g.type true
  let name := match p.form with
    | .word name => ParamName.word name
    | _ => .pattern span
  return (.param ⟨name, ← spanFrom start⟩, p.nodes ++ ty.nodes)

/-- Goes on reading the parameters of a routine, of which `earlier` are read. The first of them may
be a receiver. -/
def parametersFrom (received : Bool) (earlier : Nat) : Nat → Parser (List Param × List Node)
  | 0 => return ([], [])
  | fuel + 1 => do
    if (← ahead).isEmpty then return ([], [])
    let start ← here
    let attributes ← outerAttributes g
    if ← takes "..." then
      if !(← ahead).isEmpty then take ","
      return ([], attributes)
    let (declared, nodes) ← parameter g start
    let nodes := attributes ++ nodes
    let p ← match declared with
      | .variadic =>
        if !(← ahead).isEmpty then take ","
        return ([], nodes)
      | .param p => pure p
      | .receiver place =>
        if received then failAt place .secondReceiver
        if earlier ≠ 0 then failAt place .misplacedReceiver
        pure ⟨.word "self", ← spanFrom start⟩
    if (← ahead).isEmpty then return ([p], nodes)
    take ","
    let isReceiver := match declared with
      | .receiver _ => true
      | _ => false
    let (rest, more) ← parametersFrom (received || isReceiver) (earlier + 1) fuel
    return (p :: rest, nodes ++ more)

/-- The signature of a routine with the nodes in it, and whether it is marked as safe. -/
def signature (safe : Bool) : Parser (Signature × List Node × Bool) := do
  let start ← here
  let _ ← takes "const"
  let _ ← takes "async"
  let risky ← takes "unsafe"
  let marked := safe && !risky && sees "safe" (← ahead)
  if marked then take "safe"
  convention
  take "fn"
  let name ← identifier
  let (generics, _) ← generics g
  let (params, nodes) ← within .paren do parametersFrom g false 0 (← turns)
  let result ← resultType g true
  let (predicates, _) ← whereClause g
  return (⟨name, start.line, params⟩, generics ++ predicates ++ nodes ++ result, marked)

def routineBody (start : Place) (s : Signature) (nodes : List Node) : Parser Node := do
  let (attributes, body) ← attributedBody g
  node (.routine s true) start (attributes ++ nodes ++ [body])

/-! ### Parts of items -/

/-- The bounds of an item, up to where `stop` holds. -/
def boundsUntil (stop : List Token → Bool) : Parser (List Node) := do
  let bs ← separated "+" stop (g.bound ⟨false, true⟩)
  return bs.flatMap (·.2)

/-- Where the where clause of a type may stand. -/
inductive WherePlace where
  | beforeValue
  | afterValue
  | either
  deriving DecidableEq

/-- The declaration of a type: the nodes in it, whether it has bounds, and whether it has a
value. -/
def typeDeclaration (defaulted : Bool) (place : WherePlace) :
    Parser (List Node × Bool × Bool) := do
  let _ ← visibility
  if defaulted then
    let _ ← takes "default"
  take "type"
  let _ ← identifier
  let (parameters, _) ← generics g
  let bounded ← takes ":"
  let bounds ← if bounded then boundsUntil g (seesAny ["where", "=", ";"]) else pure []
  let (before, hasBefore) ← if place = .afterValue then pure ([], false) else whereClause g
  let valued ← takes "="
  let value ← if valued then g.type true else pure (plainType [])
  let (after, _) ←
    if place = .beforeValue || hasBefore then pure ([], false) else whereClause g
  take ";"
  return (parameters ++ before ++ after ++ bounds ++ value.nodes, bounded, valued)

/-- A constant after its keyword: the nodes in it, whether it has parameters or a where clause, and
whether it has a value. -/
def constDeclaration : Parser (List Node × Bool × Bool) := do
  let ts ← ahead
  if !(seesIdentifier ts || sees "_" ts) then failAmong [.identifier, .spelled "_"]
  let _ ← word
  let (_, generic) ← generics g
  take ":"
  let ty ← g.type true
  let valued ← takes "="
  let value ← if valued then do pure [← g.expression true] else pure []
  let (_, constrained) ← whereClause g
  take ";"
  return (ty.nodes ++ value, generic || constrained, valued)

/-- An invocation that stands as an item; outside curly braces a semicolon ends it. -/
def itemInvocation (named : Bool) : Parser Node := do
  let start ← here
  let p ← plainPath
  take "!"
  if named then
    let ts ← ahead
    if sees "try" ts || seesIdentifier ts then
      let _ ← word
  let n ← invocationBody g p start
  if !(← get).afterBrace then take ";"
  return n

/-- What an invocation that stands as an item can start with. -/
def invocationStarts : List Want :=
  [.identifier, .spelled "self", .spelled "super", .spelled "crate", .spelled "::"]

/-- Whether an invocation that stands as an item may come next. -/
def seesItemInvocation (ts : List Token) : Bool := invocationStarts.any (·.stands ts)

/-- Items in curly braces after their attributes. -/
def itemsWithin (p : Parser Node) : Parser (List Node × List Node) :=
  within .brace do
    let attributes ← innerAttributes g
    return (attributes, ← all p)

def namedField : Parser (List Node) := do
  let attributes ← outerAttributes g
  let _ ← visibility
  let unnamed ← takes "_"
  if !unnamed then
    let _ ← identifier
  take ":"
  let ts ← ahead
  if unnamed && (sees "struct" ts || sees "union" ts && seesGroup .brace (ts.drop 1)) then
    let _ ← word
    let _ ← g.namedFields
    return attributes
  return attributes ++ (← g.type true).nodes

def unnamedField : Parser (List Node) := do
  let attributes ← outerAttributes g
  let _ ← visibility
  return attributes ++ (← g.type true).nodes

/-- Fields with names in curly braces. -/
def namedFields : Parser (List Node) := do
  return (← within .brace (commas (namedField g))).flatten

/-- Fields without names in parentheses. -/
def unnamedFields : Parser (List Node) := do
  return (← within .paren (commas (unnamedField g))).flatten

/-- An alternative of an enumeration. -/
def variant : Parser (List Node) := do
  let attributes ← outerAttributes g
  let _ ← visibility
  let _ ← identifier
  let ts ← ahead
  let fields ←
    if seesGroup .brace ts then namedFields g
    else if seesGroup .paren ts then unnamedFields g
    else pure []
  if ← takes "=" then return attributes ++ fields ++ [← g.expression true]
  return attributes ++ fields

/-! ### Kinds of items -/

/-- What a structure declares after its name and parameters. -/
def structureBody : Parser (List Node) := do
  let (before, constrained) ← whereClause g
  let ts ← ahead
  if !constrained && seesGroup .paren ts then
    let fields ← unnamedFields g
    let (after, constrained) ← whereClause g
    if ← takes ";" then return after ++ fields
    failAmong (if constrained then [.spelled ";"] else [.spelled "where", .spelled ";"])
  else if seesGroup .brace ts then return before ++ (← namedFields g)
  else if ← takes ";" then return before
  else if constrained then failAmong [.group .brace, .spelled ";"]
  else failAmong [.spelled "where", .group .paren, .group .brace, .spelled ";"]

def structureItem (start : Place) : Parser Node := do
  let _ ← visibility
  take "struct"
  let name ← name
  let (parameters, _) ← generics g
  let body ← structureBody g
  node (.unit name) start (parameters ++ body)

def enumeration (start : Place) : Parser Node := do
  let _ ← visibility
  take "enum"
  let name ← name
  let (parameters, _) ← generics g
  let (predicates, _) ← whereClause g
  let variants ← within .brace (commas (variant g))
  node (.unit name) start (parameters ++ predicates ++ variants.flatten)

def unionItem (start : Place) : Parser Node := do
  let _ ← visibility
  take "union"
  let _ ← identifier
  let (parameters, _) ← generics g
  let (predicates, _) ← whereClause g
  let fields ← namedFields g
  node .other start (parameters ++ predicates ++ fields)

def aliasItem (start : Place) : Parser Node := do
  let (nodes, bounded, valued) ← typeDeclaration g false .beforeValue
  if valued && !bounded then node .other start nodes else node .verbatim start []

/-- Goes on reading what an import names. A list may hold names that start at the root only where
`roots` says so; the answer is whether none does. -/
def useTrees (roots : Bool) : Nat → Parser Bool
  | 0 => return true
  | fuel + 1 => do
    if (← ahead).isEmpty then return true
    let rooted ← if roots then takes "::" else pure false
    let plain ← g.useTree (roots && !rooted)
    if (← ahead).isEmpty then return plain && !rooted
    take ","
    let rest ← useTrees roots fuel
    return plain && !rooted && rest

/-- What an import names. -/
def useTree (roots : Bool) : Parser Bool := do
  let ts ← ahead
  if seesIdentifier ts || seesAny ["self", "super", "crate", "try"] ts then
    let _ ← word
    if ← takes "::" then g.useTree false
    else if ← takes "as" then
      let ts ← ahead
      if !(seesIdentifier ts || sees "_" ts) then fail .noIdentifierOrUnderscore
      let _ ← word
      return true
    else return true
  else if ← takes "*" then return true
  else if seesGroup .brace ts then within .brace do useTrees g roots (← turns)
  else
    failAmong [.identifier, .spelled "self", .spelled "super", .spelled "crate", .spelled "try",
      .spelled "*", .group .brace]

def useItem (start : Place) : Parser Node := do
  let _ ← visibility
  take "use"
  let rooted ← takes "::"
  let plain ← g.useTree (!rooted)
  take ";"
  node (if plain then .other else .verbatim) start []

def externCrate (start : Place) : Parser Node := do
  let _ ← visibility
  take "extern"
  take "crate"
  let _ ← if sees "self" (← ahead) then word else identifier
  if ← takes "as" then
    if !(← takes "_") then
      let _ ← identifier
  take ";"
  node .other start []

/-- A foreign routine, static or type. -/
def foreignItem : Parser Node := do
  let start ← here
  let attributes ← outerAttributes g
  let (isPublic, s) ← peek visibility
  let ts := s.rest
  let n ←
    if sees "fn" ts || seesSignature true ts then do
      let _ ← visibility
      let (sig, nodes, marked) ← signature g true
      if seesGroup .brace (← ahead) then
        let _ ← attributedBody g
        node .verbatim start []
      else
        take ";"
        if marked then node .verbatim start [] else do
          let _ := sig
          node .other start nodes
    else if sees "static" ts ||
        (sees "unsafe" ts || sees "safe" ts) && sees "static" (ts.drop 1) then do
      let _ ← visibility
      let marked ← takesAny ["unsafe", "safe"]
      take "static"
      let _ ← takes "mut"
      let _ ← identifier
      take ":"
      let ty ← g.type true
      let valued ← takes "="
      if valued then
        let _ ← g.expression true
      take ";"
      if marked || valued then node .verbatim start [] else node .other start ty.nodes
    else if sees "type" ts then do
      let (nodes, bounded, valued) ← typeDeclaration g false .either
      if bounded || valued then node .verbatim start [] else node .other start nodes
    else if !isPublic && seesItemInvocation ts then itemInvocation g false
    else throw <| s.faultAmong <|
      [.spelled "fn", .spelled "static", .spelled "type"] ++
        if isPublic then [] else invocationStarts
  return withAttributes attributes start n

def foreignBlock (start : Place) : Parser Node := do
  let _ ← takes "unsafe"
  linkage
  let (attributes, items) ← itemsWithin g (foreignItem g)
  node .other start (attributes ++ items)

def moduleItem (start : Place) : Parser Node := do
  let _ ← visibility
  let _ ← takes "unsafe"
  take "mod"
  let name ← if sees "try" (← ahead) then anyName else name
  if ← takes ";" then return ← node (.unit name) start []
  if !seesGroup .brace (← ahead) then failAmong [.spelled ";", .group .brace]
  let (attributes, items) ← itemsWithin g g.item
  node (.unit name) start (attributes ++ items)

def traitItem : Parser Node := do
  let start ← here
  let attributes ← outerAttributes g
  let isPublic ← visibility
  let defaulted ← takes "default"
  let ts ← ahead
  let routine : Parser Node := do
    let begin' ← here
    let (sig, nodes, _) ← signature g false
    if seesGroup .brace (← ahead) then routineBody g begin' sig nodes
    else if ← takes ";" then node (.routine sig false) begin' nodes
    else failAmong [.group .brace, .spelled ";"]
  let plain := !isPublic && !defaulted
  let n ←
    if sees "fn" ts || seesSignature false ts then routine
    else if sees "const" ts then do
      let next := ts.drop 1
      if seesIdentifier next || sees "_" next then
        take "const"
        let (nodes, general, _) ← constDeclaration g
        if general then return ← node .verbatim start []
        node .other start nodes
      else if seesAny ["async", "unsafe", "extern", "fn"] next then routine
      else
        take "const"
        failAmong [.identifier, .spelled "_", .spelled "async", .spelled "unsafe",
          .spelled "extern", .spelled "fn"]
    else if sees "type" ts then do
      let (nodes, _, _) ← typeDeclaration g false .afterValue
      node .other start nodes
    else if plain && seesItemInvocation ts then itemInvocation g false
    else failAmong <|
      [.spelled "fn", .spelled "const", .spelled "type"] ++ if plain then invocationStarts else []
  if plain then return withAttributes attributes start n
  node .verbatim start []

/-- The rest of a trait after its name and parameters. -/
def traitBody (start : Place) (name : Name) (parameters : List Node) : Parser Node := do
  let bounds ←
    if ← takes ":" then boundsUntil g (fun ts => sees "where" ts || seesGroup .brace ts)
    else pure []
  let (predicates, _) ← whereClause g
  let (attributes, items) ← itemsWithin g (traitItem g)
  node (.unit name) start (attributes ++ parameters ++ predicates ++ bounds ++ items)

/-- A trait that may be marked as unsafe or automatic. -/
def markedTrait (start : Place) : Parser Node := do
  let _ ← visibility
  let _ ← takes "unsafe"
  let _ ← takes "auto"
  take "trait"
  let name ← name
  let (parameters, _) ← generics g
  traitBody g start name parameters

/-- A trait, or another name for bounds. -/
def traitOrAlias (start : Place) : Parser Node := do
  let _ ← visibility
  take "trait"
  let name ← name
  let (parameters, _) ← generics g
  let ts ← ahead
  if seesGroup .brace ts || seesAny [":", "where"] ts then traitBody g start name parameters
  else if ← takes "=" then
    let bounds ← boundsUntil g (seesAny ["where", ";"])
    let (predicates, _) ← whereClause g
    take ";"
    node .other start (parameters ++ predicates ++ bounds)
  else failAmong [.group .brace, .spelled ":", .spelled "where", .spelled "="]

def implementationItem : Parser Node := do
  let start ← here
  let attributes ← outerAttributes g
  let (isPublic, s) ← peek visibility
  let defaulted := sees "default" s.rest && !sees "!" (s.rest.drop 1)
  let s := if defaulted then { s with rest := s.rest.drop 1 } else s
  let ts := s.rest
  let plain := !isPublic && !defaulted
  let n ←
    if sees "fn" ts || seesSignature false ts then do
      let begin' ← here
      let _ ← visibility
      let _ ← takes "default"
      let (sig, nodes, _) ← signature g false
      if ← takes ";" then node .verbatim start [] else routineBody g begin' sig nodes
    else if sees "const" ts then do
      let _ ← visibility
      let _ ← takes "default"
      take "const"
      let (nodes, general, valued) ← constDeclaration g
      if valued && !general then node .other start nodes else node .verbatim start []
    else if sees "type" ts then do
      let (nodes, bounded, valued) ← typeDeclaration g true .afterValue
      if valued && !bounded then node .other start nodes else node .verbatim start []
    else if plain && seesItemInvocation ts then itemInvocation g false
    else throw <| s.faultAmong <|
      (if defaulted then [] else [.spelled "default"]) ++
        [.spelled "fn", .spelled "const", .spelled "type"] ++
          if plain then invocationStarts else []
  if n.form == .verbatim then return n
  return withAttributes attributes start n

/-- The name of the type that a type path ends in. -/
def TypeShape.unit? (t : TypeShape) : Option String :=
  match t.form with
  | .path p => p.segments.getLast?.map Segment.name
  | _ => none

/-- An implementation, of a trait or of a type itself. -/
def implementation (start : Place) : Parser Node := do
  let isPublic ← visibility
  let _ ← takes "default"
  let _ ← takes "unsafe"
  take "impl"
  let parameters ← if seesGenerics (← ahead) then do pure (← generics g).1 else pure []
  let ts ← ahead
  let constant := sees "const" ts || sees "?" ts && sees "const" (ts.drop 1)
  if constant then
    let _ ← takes "?"
    take "const"
  let ts ← ahead
  let negative := sees "!" ts && !seesGroup .brace (ts.drop 1)
  if negative then take "!"
  let first ← g.type true
  let ofTrait ← takes "for"
  let self ← if ofTrait then g.type true else pure first
  let (predicates, _) ← whereClause g
  let (attributes, items) ← itemsWithin g (implementationItem g)
  let named := match first.form with
    | .path p => !p.qualified
    | _ => false
  if isPublic || constant || ofTrait && !named then return ← node .verbatim start []
  let types :=
    if ofTrait then first.nodes ++ self.nodes else if negative then [] else first.nodes
  let form := if ofTrait then Form.other else .inherent (if negative then none else self.unit?)
  node form start (attributes ++ parameters ++ predicates ++ types ++ items)

def macroDefinition (start : Place) : Parser Node := do
  let _ ← visibility
  take "macro"
  let _ ← identifier
  let first ← ahead
  let listed := seesGroup .paren first
  if listed then
    let _ ← anyGroup
  if seesGroup .brace (← ahead) then
    let _ ← anyGroup
    node .verbatim start []
  else failAmong (if listed then [.group .brace] else [.group .paren, .group .brace])

def staticItem (start : Place) : Parser Node := do
  let _ ← visibility
  take "static"
  let _ ← takes "mut"
  let _ ← identifier
  if ← takes "=" then
    let _ ← g.expression true
    take ";"
    return ← node .verbatim start []
  take ":"
  let ty ← g.type true
  if ← takes ";" then return ← node .verbatim start []
  take "="
  let value ← g.expression true
  take ";"
  node .other start (ty.nodes ++ [value])

/-- What an item can start with. -/
def itemStarts : List Want :=
  ["fn", "extern", "use", "static", "const", "unsafe", "mod", "type", "struct", "enum", "union",
    "trait", "auto", "impl", "default", "macro"].map .spelled

def bareItem : Parser Node := do
  let start ← here
  let (isPublic, s) ← peek visibility
  let ts := s.rest
  let next := ts.drop 1
  let after : State := { s with rest := next }
  if sees "fn" ts || seesSignature false ts then
    let _ ← visibility
    let (sig, nodes, _) ← signature g false
    if ← takes ";" then node .verbatim start [] else routineBody g start sig nodes
  else if sees "extern" ts then
    if sees "crate" next then externCrate start
    else if seesGroup .brace next then foreignBlock g start
    else if seesText next then
      if seesGroup .brace (next.drop 1) then foreignBlock g start
      else throw ({ s with rest := next.drop 1 }.faultAmong [.group .brace])
    else throw (after.faultAmong [.spelled "crate", .group .brace, .stringLiteral])
  else if sees "use" ts then useItem g start
  else if sees "static" ts then staticItem g start
  else if sees "const" ts then
    let _ ← visibility
    take "const"
    let (nodes, general, valued) ← constDeclaration g
    if valued && !general then node .other start nodes else node .verbatim start []
  else if sees "unsafe" ts then
    if sees "trait" next || sees "auto" next && sees "trait" (next.drop 1) then markedTrait g start
    else if sees "impl" next then implementation g start
    else if sees "extern" next then foreignBlock g start
    else if sees "mod" next then moduleItem g start
    else throw (after.faultAmong (["trait", "auto", "impl", "extern", "mod"].map .spelled))
  else if sees "mod" ts then moduleItem g start
  else if sees "type" ts then aliasItem g start
  else if sees "struct" ts then structureItem g start
  else if sees "enum" ts then enumeration g start
  else if sees "union" ts && seesIdentifier next then unionItem g start
  else if sees "trait" ts then traitOrAlias g start
  else if sees "auto" ts && sees "trait" next then markedTrait g start
  else if sees "impl" ts || sees "default" ts && !sees "!" next then implementation g start
  else if sees "macro" ts then macroDefinition start
  else if !isPublic && seesItemInvocation ts then itemInvocation g true
  else throw (s.faultAmong (itemStarts ++ if isPublic then [] else invocationStarts))

def item : Parser Node := do
  let start ← here
  let attributes ← outerAttributes g
  let n ← bareItem g
  if n.form == .verbatim then return n
  return withAttributes attributes start n

end Retrace.Source
