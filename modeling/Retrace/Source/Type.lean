import Retrace.Source.Path
/-!
Types, the bounds on them, generic parameters and where clauses.
-/
namespace Retrace.Source

open Source.Parser

variable (g : Grammar)

/-- A type of which nothing but its nodes matters. -/
def plainType (nodes : List Node) : TypeShape := ⟨.other, nodes⟩

/-! ### Generic parameters -/

/-- Bounds that an equals sign, a comma or a closing bracket ends. -/
def parameterBounds (stop : List String) : Parser (List Node) := do
  let bounds ← chained "+" (seesAny stop) (g.bound ⟨false, true⟩)
  return bounds.flatMap (·.2)

def lifetimeParameter : Parser (List Node) := do
  lifetime
  if ← takes ":" then
    let _ ← chained "+" (seesAny [",", ">"]) lifetime
  return []

def typeParameter : Parser (List Node) := do
  let _ ← identifier
  let bounds ← if ← takes ":" then parameterBounds g [",", ">", "="] else pure []
  if ← takes "=" then return bounds ++ (← g.type true).nodes
  return bounds

def constParameter : Parser (List Node) := do
  take "const"
  let _ ← identifier
  take ":"
  let ty ← g.type true
  if ← takes "=" then return ty.nodes ++ [← constArgument g]
  return ty.nodes

/-- A generic parameter of a binder. -/
def binderParameter : Parser (List Node) := do
  let attributes ← outerAttributes g
  let ts ← ahead
  if seesIdentifier ts then return attributes ++ (← typeParameter g)
  if seesLifetime ts then return attributes ++ (← lifetimeParameter)
  if sees "const" ts then return attributes ++ (← constParameter g)
  failAmong [.identifier, .lifetime, .spelled "const"]

/-- A generic parameter of an item. -/
def genericParameter : Parser (List Node) := do
  let attributes ← outerAttributes g
  let ts ← ahead
  if seesLifetime ts then return attributes ++ (← lifetimeParameter)
  if seesIdentifier ts then return attributes ++ (← typeParameter g)
  if sees "const" ts then return attributes ++ (← constParameter g)
  if ← takes "_" then return attributes
  failAmong [.lifetime, .identifier, .spelled "const"]

/-- The parameters bound by `for`. -/
def binder : Parser (List Node) := do
  take "for"
  take "<"
  let ps ← separated "," (sees ">") (binderParameter g)
  take ">"
  return ps.flatten

def binderIfAny : Parser (List Node) := do
  if sees "for" (← ahead) then binder g else return []

/-- The generic parameters of an item, and whether there is a list of them. -/
def generics : Parser (List Node × Bool) := do
  if !(← takes "<") then return ([], false)
  let ps ← separated "," (sees ">") (genericParameter g)
  take ">"
  return (ps.flatten, true)

/-- Whether what comes next are generic parameters rather than a qualified path. -/
def seesGenerics (ts : List Token) : Bool :=
  let second := ts.drop 1
  let third := ts.drop 2
  sees "<" ts &&
    (seesAny [">", "#"] second ||
      (seesLifetime second || seesIdentifier second) &&
        (seesAny [">", ","] third || sees ":" third && !sees "::" third || sees "=" third) ||
      sees "const" second)

/-- A colon that is not the first half of a double colon. -/
def seesColon (ts : List Token) : Bool := sees ":" ts && !sees "::" ts

/-- What ends the bounds of a where clause. -/
def endsWhere (ts : List Token) : Bool :=
  ts.isEmpty || seesGroup .brace ts || seesAny [",", ";", "="] ts || seesColon ts

def wherePredicate : Parser (List Node) := do
  let ts ← ahead
  if seesLifetime ts && sees ":" (ts.drop 1) then
    lifetime
    take ":"
    let _ ← chained "+" (fun ts => endsWhere ts || sees ":" ts) lifetime
    return []
  let lifetimes ← binderIfAny g
  let ty ← g.type true
  take ":"
  let bounds ← chained "+" endsWhere (g.bound ⟨false, true⟩)
  return lifetimes ++ ty.nodes ++ bounds.flatMap (·.2)

/-- A where clause if one comes next, and whether one did. -/
def whereClause : Parser (List Node × Bool) := do
  if !(← takes "where") then return ([], false)
  if seesGenerics (← ahead) then fail .whereGenerics
  let predicates ← chained "," endsWhere (wherePredicate g)
  return (predicates.flatten, true)

/-! ### Bounds -/

/-- The parameters that a bound captures. -/
def capturedFrom : Nat → Parser Unit
  | 0 => return
  | fuel + 1 => do
    let ts ← ahead
    if seesLifetime ts then lifetime
    else if seesIdentifier ts || sees "Self" ts then
      let _ ← word
    else if sees ">" ts then return
    else failAmong [.lifetime, .identifier, .spelled ">"]
    let ts ← ahead
    if sees "," ts then
      take ","
      capturedFrom fuel
    else if !sees ">" ts then failAmong [.spelled ",", .spelled ">"]

/-- The bound on a trait, which may be negligible or constant. A constant bound and its nodes are
kept as text only. -/
def traitBound (rules : BoundRules) : Parser (List Node) := do
  let first ← binderIfAny g
  let start ← here
  let ts ← ahead
  let bracketed := seesGroup .bracket ts
  let constant := bracketed || sees "const" ts
  if bracketed then within .bracket (take "const")
  else if constant then take "const"
  if constant && !rules.constant then failAt start (.constHere bracketed)
  let modifier ← here
  let maybe ← takes "?"
  let bound := sees "for" ts || maybe && sees "for" (← ahead)
  let lifetimes ← if maybe && !sees "for" ts then binderIfAny g else pure first
  let p ← unqualifiedPath g false
  let ts ← ahead
  let args ←
    if p.lastArguments.isEmpty &&
        (seesGroup .paren ts || sees "::" ts && seesGroup .paren (ts.drop 2)) then do
      let _ ← takes "::"
      let (args, _) ← parenthesizedArguments g
      pure args
    else pure []
  if maybe && bound then failAt modifier .binderWithModifier
  return if constant then [] else lifetimes ++ p.nodes ++ args

/-- A bound: a lifetime, a list of captured parameters, or a trait, in parentheses perhaps. Answers
whether it is a trait. -/
def bound (rules : BoundRules) : Parser (Bool × List Node) := do
  let ts ← ahead
  if seesLifetime ts then
    lifetime
    return (false, [])
  if sees "use" ts then
    let start ← here
    take "use"
    take "<"
    capturedFrom (← turns)
    take ">"
    if !rules.capturing then failAt start .capturingHere
    return (false, [])
  let nodes ← if seesGroup .paren ts then within .paren (traitBound g rules) else traitBound g rules
  return (true, nodes)

/-- Whether a further bound can follow a plus sign. -/
def seesBound (ts : List Token) : Bool :=
  seesWord ts || seesAny ["::", "?"] ts || seesLifetime ts || seesGroup .paren ts

def boundsFrom (rules : BoundRules) (more : List Token → Bool) (plus : Bool) :
    Nat → Parser (List (Bool × List Node))
  | 0 => return []
  | fuel + 1 => do
    let b ← g.bound rules
    if plus && sees "+" (← ahead) then
      take "+"
      if more (← ahead) then return b :: (← boundsFrom rules more plus fuel)
    return [b]

/-- One bound, or several when `plus` allows them. -/
def bounds (rules : BoundRules) (plus : Bool) : Parser (List (Bool × List Node)) := do
  let more := fun ts => seesBound ts || rules.constant && seesGroup .bracket ts
  boundsFrom g rules more plus (← turns)

/-- The bounds of an object type that starts at a place; one of them is a trait. -/
def objectBounds (start : Place) (plus : Bool) : Parser (List (Bool × List Node)) := do
  let bs ← bounds g ⟨false, false⟩ plus
  if !bs.any (·.1) then failAt start .objectWithoutTrait
  return bs

/-! ### Types -/

/-- An object type made of the nodes of its first bound and of further bounds. -/
def objectFrom (first : List Node) (rest : List (Bool × List Node)) : TypeShape :=
  ⟨.bounds rest.isEmpty, first ++ rest.flatMap (·.2)⟩

/-- Further bounds, each after a plus sign. -/
def plusBounds : Parser (List (Bool × List Node)) := many (sees "+") do
  take "+"
  g.bound ⟨false, false⟩

/-- What parentheses around types hold: all there is to the type, a bound marked with a question
mark, or a type. -/
inductive Enclosed where
  | whole
  | relaxedBound
  | type

/-- What stands in parentheses around types. -/
def enclosedType : Parser (TypeShape × Enclosed) := do
  let ts ← ahead
  if ts.isEmpty then return (plainType [], .whole)
  if seesLifetime ts then
    let start ← here
    let bs ← objectBounds g start true
    return (⟨.parenthesized, bs.flatMap (·.2)⟩, .whole)
  if sees "?" ts then return (plainType (← traitBound g ⟨false, false⟩), .relaxedBound)
  let first ← g.type true
  if ← takes "," then
    let others ← commas (g.type true)
    return (plainType (first.nodes ++ others.flatMap TypeShape.nodes), .whole)
  return (first, .type)

def parenthesizedType (plus : Bool) : Parser TypeShape := do
  let (inner, content) ← within .paren (enclosedType g)
  match content with
  | .whole => return inner
  | .relaxedBound => return objectFrom inner.nodes (← plusBounds g)
  | .type =>
    let isBound := match inner.form with
      | .path p => !p.qualified
      | .bounds single => single
      | _ => false
    if plus && isBound && sees "+" (← ahead) then
      return objectFrom inner.nodes (← plusBounds g)
    return ⟨.parenthesized, inner.nodes⟩

def functionTypeParam (first : Bool) : Parser (List Node) := do
  let ts ← ahead
  let mutableSelf := first && sees "mut" ts && sees "self" (ts.drop 1)
  if mutableSelf then take "mut"
  let ts ← ahead
  let self := first && sees "self" ts
  let named := (seesIdentifier ts || sees "_" ts || self) && seesColon (ts.drop 1)
  if named then
    let _ ← word
    take ":"
    let ty ← g.type true
    return if mutableSelf then [] else ty.nodes
  if mutableSelf then
    take "self"
    return []
  return (← g.type true).nodes

/-- Whether the dots of a variadic function type come next, named perhaps. -/
def seesVariadic (ts : List Token) : Bool :=
  sees "..." ts ||
    (seesIdentifier ts || sees "_" ts) && sees ":" (ts.drop 1) && sees "..." (ts.drop 2)

def functionTypeParams (first : Bool) : Nat → Parser (List Node)
  | 0 => return []
  | fuel + 1 => do
    if (← ahead).isEmpty then return []
    let attributes ← outerAttributes g
    let ts ← ahead
    if seesVariadic ts then
      if !sees "..." ts then
        let _ ← word
        take ":"
      take "..."
      let _ ← takes ","
      return attributes
    let p ← functionTypeParam g first
    if (← ahead).isEmpty then return attributes ++ p
    take ","
    return attributes ++ p ++ (← functionTypeParams false fuel)

/-- A calling convention, which may be named. -/
def linkage : Parser Unit := do
  take "extern"
  if seesText (← ahead) then
    let _ ← literal

def convention : Parser Unit := do if sees "extern" (← ahead) then linkage

def resultType (plus : Bool) : Parser (List Node) := do
  if ← takes "->" then return (← g.type plus).nodes
  return []

def functionType : Parser TypeShape := do
  let _ ← takes "unsafe"
  convention
  take "fn"
  let params ← within .paren do functionTypeParams g true (← turns)
  return plainType (params ++ (← resultType g false))

/-- Goes on reading the parenthesized arguments of the last segment of a path. -/
def typeArguments : Nat → Path → Parser Path
  | 0, p => return p
  | fuel + 1, p => do
    let ts ← ahead
    if p.lastArguments.isEmpty &&
        (seesGroup .paren ts || sees "::" ts && seesGroup .paren (ts.drop 2)) then
      let _ ← takes "::"
      let (args, extendable) ← parenthesizedArguments g
      let segments := p.segments.dropLast ++ [⟨p.last, .parenthesized⟩]
      let p := { p with segments := segments, nodes := p.nodes ++ args }
      if extendable then
        let rest ← furtherSegments g false seesFurtherSegment
        typeArguments fuel (p.extend rest)
      else return p
    else return p

/-- A path that stands as a type. -/
def typePath : Parser Path := do typeArguments g (← turns) (← path g false)

/-- A type that starts with a path: the path, an invocation, or bounds. -/
def pathType (plus : Bool) (lifetimes : Option (List Node)) : Parser TypeShape := do
  let start ← here
  let p ← typePath g
  let asPath : TypeShape := ⟨.path p, p.nodes⟩
  if p.qualified then return asPath
  let ts ← ahead
  if sees "!" ts && !sees "!=" ts && p.isPlain then
    return plainType [← invocation g p start]
  let open' := plus && sees "+" ts
  if lifetimes.isNone && !open' then return asPath
  let first := lifetimes.getD [] ++ p.nodes
  if !open' then return objectFrom first []
  take "+"
  if !seesBound (← ahead) then return ⟨.bounds false, first⟩
  return objectFrom first (← boundsFrom g ⟨false, false⟩ seesBound true (← turns))

def typeStarts : List Want :=
  [.spelled "for", .group .paren, .spelled "fn", .spelled "unsafe", .spelled "extern", .identifier,
    .spelled "::", .spelled "<", .spelled "dyn", .group .bracket, .spelled "*", .spelled "&",
    .spelled "!", .spelled "impl", .spelled "_", .lifetime]

/-- What can follow a binder in a type. -/
def boundTypeStarts : List Want :=
  [.identifier, .spelled "fn", .spelled "unsafe", .spelled "extern", .spelled "super",
    .spelled "self", .spelled "Self", .spelled "crate"]

def type (plus : Bool) : Parser TypeShape := do
  let start ← here
  let lifetimes : Option (List Node) ←
    if sees "for" (← ahead) then do
      let lifetimes ← binder g
      let ts ← ahead
      if !boundTypeStarts.any (·.stands ts) || sees "dyn" ts then failAmong boundTypeStarts
      pure (some lifetimes)
    else pure none
  let ts ← ahead
  if seesGroup .paren ts then parenthesizedType g plus
  else if seesAny ["fn", "unsafe", "extern"] ts then
    let f ← functionType g
    return { f with nodes := lifetimes.getD [] ++ f.nodes }
  else if seesIdentifier ts || seesAny ["super", "self", "Self", "crate", "::", "<"] ts then
    pathType g plus lifetimes
  else if sees "dyn" ts then
    take "dyn"
    let starred ← takes "*"
    let bs ← objectBounds g start plus
    return plainType (if starred then [] else bs.flatMap (·.2))
  else if seesGroup .bracket ts then
    within .bracket do
      let elem ← g.type true
      if ← takes ";" then
        let length ← g.expression true
        return plainType (elem.nodes ++ [length])
      return plainType elem.nodes
  else if sees "*" ts then
    take "*"
    if !(← takesAny ["const", "mut"]) then failAmong [.spelled "const", .spelled "mut"]
    return plainType (← g.type false).nodes
  else if sees "&" ts then
    take "&"
    lifetimeIfAny
    let _ ← takes "mut"
    return plainType (← g.type false).nodes
  else if sees "!" ts && !sees "=" ts then
    take "!"
    return plainType []
  else if sees "impl" ts then
    take "impl"
    let bs ← bounds g ⟨true, true⟩ plus
    if !bs.any (·.1) then failAt start .boundWithoutTrait
    return plainType (bs.flatMap (·.2))
  else if sees "_" ts then
    take "_"
    return plainType []
  else if seesLifetime ts then
    let bs ← objectBounds g start true
    return ⟨.bounds (bs.length ≤ 1), bs.flatMap (·.2)⟩
  else failAmong typeStarts

end Retrace.Source
