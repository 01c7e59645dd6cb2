import Retrace.Text.Search
import Retrace.Text.Space
import Retrace.Text.Word
/-!
The names of routines in a call chain. A symbol is a path whose segments are divided by double
colons; those inside angle brackets divide nothing, and the bracket of an arrow is no bracket.
-/
namespace Retrace.Symbol

open Retrace.Text

/-- The mark of a closure at the end of a symbol. -/
def closureMark : List Char := "::\x7b\x7bclosure\x7d\x7d".toList

/-- The mark before the hash that a compiler appends to a symbol. -/
def hashMark : List Char := "::h".toList

/-- A symbol without surrounding blanks and without its hash. -/
def normalize (s : List Char) : List Char :=
  let s := trim s
  match splitLast hashMark s with
  | some (head, hash) =>
    if hash.length = 16 ∧ hash.all (fun c => (hexValue? c).isSome) then head else s
  | none => s

/-- The segments from here on, `depth` brackets being open and `seen` holding the current segment
in reverse. The depth has no bound; a depth kept in 32 bits differs only in a symbol with at least
`2 ^ 31` brackets. -/
def segmentsFrom (depth : Int) (seen : List Char) : List Char → List (List Char)
  | [] => [seen.reverse]
  | '-' :: '>' :: s => segmentsFrom depth ('>' :: '-' :: seen) s
  | c :: d :: s =>
    if depth = 0 ∧ c = ':' ∧ d = ':' then seen.reverse :: segmentsFrom depth [] s
    else
      let depth := if c = '<' then depth + 1 else if c = '>' then depth - 1 else depth
      segmentsFrom depth (c :: seen) (d :: s)
  | [c] => [(c :: seen).reverse]

/-- The segments of a symbol outside angle brackets, empty ones left out. -/
def segments (s : List Char) : List (List Char) :=
  (segmentsFrom 0 [] s).filter fun p => !p.isEmpty

/-- A symbol without the marks of closures at its end, continued with fuel. -/
def dropClosures : Nat → List Char → List Char
  | 0, s => s
  | fuel + 1, s =>
    match stripSuffix? closureMark s with
    | some rest => dropClosures fuel rest
    | none => s

/-- The name of a routine: the last segment of its symbol, closures aside, without angle brackets
around it. -/
def short (s : List Char) : List Char :=
  let path := dropClosures s.length s
  let last := (segments path).getLast?.getD path
  dropEndWhile (· == '>') (last.dropWhile (· == '<'))

/-- The words that may stand before a type in a symbol. -/
def qualifiers : List (List Char) := ["mut ", "dyn ", "*const ", "*mut "].map String.toList

/-- A type after leading blanks, ampersands and one qualifier. -/
def dropQualifier (s : List Char) : List Char :=
  let s := (trimStart s).dropWhile (· == '&')
  (qualifiers.findSome? (stripPrefix? · s)).getD s

/-- A type without the qualifiers before it, continued with fuel. -/
def dropQualifiersFrom : Nat → List Char → List Char
  | 0, s => trim s
  | fuel + 1, s =>
    let next := dropQualifier s
    if next.length = s.length then trim s else dropQualifiersFrom fuel next

/-- A type without the qualifiers before it and without surrounding blanks. -/
def dropQualifiers (s : List Char) : List Char := dropQualifiersFrom (s.length + 1) s

/-- What angle brackets hold up to their end: a type, and a trait after the first `as` outside
inner brackets. As in `segmentsFrom`, the depth has no bound; kept in 32 bits it differs only from
`2 ^ 31` brackets on. -/
def qualifiedFrom (depth : Int) (self : Option (List Char)) (seen : List Char) :
    List Char → Option (List Char × Option (List Char))
  | [] => none
  | '-' :: '>' :: s => qualifiedFrom depth self ('>' :: '-' :: seen) s
  | ' ' :: 'a' :: 's' :: ' ' :: s =>
    if depth = 0 ∧ self.isNone then qualifiedFrom depth (some seen.reverse) [] s
    else qualifiedFrom depth self (' ' :: 's' :: 'a' :: ' ' :: seen) s
  | c :: s =>
    if c = '>' ∧ depth = 0 then
      match self with
      | some t => some (t, some seen.reverse)
      | none => some (seen.reverse, none)
    else
      let depth := if c = '<' then depth + 1 else if c = '>' then depth - 1 else depth
      qualifiedFrom depth self (c :: seen) s

/-- The type and the trait that qualify a symbol, if angle brackets open it. -/
def qualified? : List Char → Option (List Char × Option (List Char))
  | '<' :: s => (qualifiedFrom 0 none [] s).map fun (self, t) => (dropQualifiers self, t.map trim)
  | _ => none

end Retrace.Symbol
