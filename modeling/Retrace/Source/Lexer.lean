import Retrace.Source.Token
import Retrace.Source.LiteralShape
/-!
From text to tokens. Documentation comments become attributes. The only faults are a token that is
none, a delimiter that closes nothing or the wrong group, and a group that is never closed; each is
reported by its place alone.
-/
namespace Retrace.Source

open Retrace.Text

/-- A documentation comment: its length, and whether it documents what encloses it. -/
structure DocComment where
  length : Nat
  inner : Bool

/-- Whether every carriage return stands before a line feed. -/
def returnsEnded : List Char → Bool
  | [] => true
  | '\r' :: '\n' :: s => returnsEnded s
  | '\r' :: _ => false
  | _ :: s => returnsEnded s

/-- The documentation comment at the start of a text. A stray carriage return in it spoils it. -/
def docComment? (s : List Char) : Option DocComment := do
  let c ←
    if opens "//!" s then some ⟨lineLength 0 s, true⟩
    else if opens "/*!" s then (blockLength 0 0 s).map (⟨·, true⟩)
    else if opens "///" s && !opens "////" s then some ⟨lineLength 0 s, false⟩
    else if opens "/**" s && !opens "/***" s then (blockLength 0 0 s).map (⟨·, false⟩)
    else none
  if returnsEnded (s.take c.length) then some c else none

/-- The tokens of the attribute that a documentation comment stands for, all in the place of the
comment. The text of the comment is not kept. -/
def DocComment.tokens (c : DocComment) (start : Place) (last : Place) : List Token :=
  let stop := start.offset + c.length
  let body := [.word ⟨"doc", by decide⟩ start stop, .mark '=' false start stop, .literal ['"', '"'] start stop]
  let bang := if c.inner then [.mark '!' false start stop] else []
  .mark '#' false start stop :: bang ++ [.group .bracket body start last stop]

/-- The punctuation character at the start of a text, where no comment starts. -/
def markChar? : List Char → Option Char
  | [] => none
  | c :: s =>
    if opens "//" (c :: s) || opens "/*" (c :: s) then none
    else if c ∈ "~!@#$%^&*-=+|;:,<.>/?'".toList then some c
    else none

/-- The length of an identifier, which may carry a raw mark. The words that name a path's root or
nothing at all have no raw form. -/
def nameLength? (s : List Char) : Option Nat :=
  match stripPrefix? rawMark s with
  | none => wordLength? s
  | some r => do
    let n ← wordLength? r
    if String.ofList (r.take n) ∈ ["_", "super", "self", "Self", "crate"] then none
    else some (n + 2)

theorem isWord_take {s : List Char} {n : Nat} (h : wordLength? s = some n) : isWord (s.take n) := by
  cases s with
  | nil => simp [wordLength?] at h
  | cons c s =>
    obtain ⟨hc, rfl⟩ : startsWord c = true ∧ 1 + run continuesWord s = n := by
      simpa [wordLength?] using h
    have htake : s.take (run continuesWord s) = s.takeWhile continuesWord :=
      List.prefix_iff_eq_take.mp (List.takeWhile_prefix _) |>.symm
    rw [Nat.add_comm, List.take_succ_cons, htake]
    simp [isWord, hc, List.all_takeWhile]

/-- What the length of an identifier says is an identifier. -/
theorem isName_take {s : List Char} {n : Nat} (h : nameLength? s = some n) :
    isName (s.take n) := by
  unfold nameLength? at h
  split at h
  · rename_i hp
    have hn : stripPrefix? rawMark (s.take n) = none := by
      cases ht : stripPrefix? rawMark (s.take n) with
      | none => rfl
      | some r =>
        have hs : s = rawMark ++ (r ++ s.drop n) := by
          rw [← List.append_assoc, ← eq_append_of_stripPrefix? ht, List.take_append_drop]
        rw [hs, stripPrefix?_append] at hp
        cases hp
    simp only [isName, hn]
    exact isWord_take h
  · rename_i r hp
    obtain ⟨k, hk, hrest⟩ := Option.bind_eq_some_iff.mp h
    split at hrest
    · cases hrest
    · obtain rfl := Option.some.inj hrest
      have hs := eq_append_of_stripPrefix? hp
      have htake : s.take (k + 2) = rawMark ++ r.take k := by
        rw [hs, Nat.add_comm, show 2 = rawMark.length from rfl, List.take_length_add_append]
      rw [htake]
      simp only [isName, stripPrefix?_append]
      exact isWord_take hk

/-- The starts of quoted literals; where one of them is no literal, it is no identifier either. -/
def quotedStarts : List String :=
  ["r\"", "r#\"", "r##", "b\"", "b'", "br\"", "br#", "c\"", "cr\"", "cr#"]

def lifetimeLength? : List Char → Option Nat
  | '\'' :: s => do
    let n ← nameLength? s
    match (s.drop n).head? with
    | some '\'' => none
    | some '#' => if opens "r#" s then some (n + 1) else none
    | _ => some (n + 1)
  | _ => none

/-- The mark that stands for a token that could not be printed. -/
def placeholder : List Char := "(/*ERROR*/)".toList

/-- A token that is no group, with its length. -/
def leaf? (s : List Char) (p : Place) : Option (Token × Nat) :=
  match literalLength? s with
  | some n => some (.literal (s.take n) p (p.offset + n), n)
  | none =>
    match markChar? s with
    | some '\'' =>
      (lifetimeLength? s).map fun n =>
        (.lifetime (String.ofList ((s.take n).drop 1)) p (p.offset + n), n)
    | some c => some (.mark c (markChar? (s.drop 1)).isSome p (p.offset + 1), 1)
    | none =>
      if quotedStarts.any (opens · s) then none
      else match h : nameLength? s with
        | some n =>
          let name : Name := ⟨String.ofList (s.take n), by simpa using isName_take h⟩
          some (.word name p (p.offset + n), n)
        | none =>
          (stripPrefix? placeholder s).map fun _ =>
            (.literal placeholder p (p.offset + placeholder.length), placeholder.length)

/-- A group that is not closed yet, with the tokens before it, the latest one first. -/
structure OpenGroup where
  delimiter : Delimiter
  start : Place
  before : List Token

/-- Reads tokens on. `done` holds the tokens of the current group, the latest one first. -/
def tokensFrom : Nat → Cursor → List OpenGroup → List Token → Except Place (List Token)
  | 0, k, _, _ => .error k.place
  | fuel + 1, k, groups, done =>
    let k := k.skip (gapLength k.rest)
    match docComment? k.rest with
    | some c =>
      let last := (k.skip (c.length - 1)).place
      tokensFrom fuel (k.skip c.length) groups ((c.tokens k.place last).reverse ++ done)
    | none =>
      match k.rest, groups with
      | [], [] => .ok done.reverse
      | [], g :: _ => .error g.start
      | c :: s, groups =>
        match Delimiter.ofOpener? c, Delimiter.ofCloser? c with
        | some d, _ =>
          if (stripPrefix? placeholder (c :: s)).isSome then
            match leaf? k.rest k.place with
            | some (t, n) => tokensFrom fuel (k.skip n) groups (t :: done)
            | none => .error k.place
          else tokensFrom fuel (k.skip 1) (⟨d, k.place, done⟩ :: groups) []
        | none, some d =>
          match groups with
          | [] => .error k.place
          | g :: outer =>
            if g.delimiter = d then
              let t := .group d done.reverse g.start k.place (k.place.offset + 1)
              tokensFrom fuel (k.skip 1) outer (t :: g.before)
            else .error k.place
        | none, none =>
          match leaf? k.rest k.place with
          | some (t, n) => tokensFrom fuel (k.skip n) groups (t :: done)
          | none => .error k.place

/-- The tokens of a text, a byte order mark at its start aside, or the place of the fault. -/
def tokens (s : List Char) : Except Place (List Token) :=
  let k := Cursor.ofText s
  tokensFrom (s.length + 1) (if s.head? = some (Char.ofNat 0xFEFF) then k.skip 1 else k) [] []

end Retrace.Source
