/-!
Places in a source text. Lines and columns count from one; a line feed ends a line, and a column
counts characters.
-/
namespace Retrace.Source

/-- A place between two characters of a source text. -/
structure Place where
  offset : Nat
  line : Nat
  column : Nat
  deriving DecidableEq, Repr

namespace Place

def origin : Place := ⟨0, 1, 1⟩

/-- The place after a character that stands at `p`. -/
def after (p : Place) (c : Char) : Place :=
  if c = '\n' then ⟨p.offset + 1, p.line + 1, 1⟩ else ⟨p.offset + 1, p.line, p.column + 1⟩

end Place

/-- A place with the text that follows it. -/
structure Cursor where
  place : Place
  rest : List Char

namespace Cursor

variable {k : Cursor} {n : Nat}

def ofText (s : List Char) : Cursor := ⟨.origin, s⟩

/-- Steps over `n` characters, or over all that are left. -/
def skip : Nat → Cursor → Cursor
  | 0, k => k
  | n + 1, ⟨p, c :: s⟩ => skip n ⟨p.after c, s⟩
  | _ + 1, ⟨p, []⟩ => ⟨p, []⟩

theorem skip_rest : (k.skip n).rest = k.rest.drop n := by
  induction n generalizing k with
  | zero => rfl
  | succ n ih => rcases k with ⟨p, _ | ⟨c, s⟩⟩ <;> simp [skip, ih]

end Cursor

end Retrace.Source
