/-!
Looking for a fixed text inside another: as a prefix, as a suffix, at the first and at the last
place it occurs, and everywhere.
-/
namespace Retrace.Text

variable {p s t u : List Char}

/-- The text after the prefix `p`. -/
def stripPrefix? : List Char → List Char → Option (List Char)
  | [], s => some s
  | _ :: _, [] => none
  | c :: p, d :: s => if c = d then stripPrefix? p s else none

def stripSuffix? (p s : List Char) : Option (List Char) :=
  (stripPrefix? p.reverse s.reverse).map List.reverse

/-- The text on either side of the first occurrence of `p`. -/
def splitOnce (p : List Char) : List Char → Option (List Char × List Char)
  | [] => if p.isEmpty then some ([], []) else none
  | c :: s =>
    match stripPrefix? p (c :: s) with
    | some rest => some ([], rest)
    | none => (splitOnce p s).map fun (a, b) => (c :: a, b)

/-- The text on either side of the last occurrence of `p`. -/
def splitLast (p s : List Char) : Option (List Char × List Char) :=
  (splitOnce p.reverse s.reverse).map fun (a, b) => (b.reverse, a.reverse)

/-- The pieces between the characters equal to `sep`, empty ones included. -/
def splitAt (sep : Char) : List Char → List (List Char)
  | [] => [[]]
  | c :: s =>
    if c = sep then [] :: splitAt sep s
    else match splitAt sep s with
      | [] => [[c]]
      | piece :: rest => (c :: piece) :: rest

/-- The texts one after another with `sep` between them. -/
def join (sep : List Char) : List (List Char) → List Char
  | [] => []
  | [s] => s
  | s :: rest => s ++ sep ++ join sep rest

theorem stripPrefix?_append : stripPrefix? p (p ++ s) = some s := by
  induction p with
  | nil => cases s <;> rfl
  | cons c p ih => simp [stripPrefix?, ih]

theorem eq_append_of_stripPrefix? (h : stripPrefix? p s = some t) : s = p ++ t := by
  induction p generalizing s with
  | nil => cases s <;> simp_all [stripPrefix?]
  | cons c p ih =>
    cases s with
    | nil => simp [stripPrefix?] at h
    | cons d s =>
      by_cases hc : c = d
      · subst hc; simp [stripPrefix?] at h; simp [ih h]
      · simp [stripPrefix?, hc] at h

theorem stripPrefix?_eq_some_iff : stripPrefix? p s = some t ↔ s = p ++ t :=
  ⟨eq_append_of_stripPrefix?, fun h => h ▸ stripPrefix?_append⟩

theorem eq_append_of_splitOnce (h : splitOnce p s = some (t, u)) : s = t ++ p ++ u := by
  induction s generalizing t with
  | nil => cases p <;> simp_all [splitOnce]
  | cons c s ih =>
    simp only [splitOnce] at h
    split at h
    · rename_i rest hr
      obtain ⟨rfl, rfl⟩ : t = [] ∧ u = rest := by simpa [eq_comm] using h
      simpa using eq_append_of_stripPrefix? hr
    · obtain ⟨⟨a, b⟩, hab, he⟩ := Option.map_eq_some_iff.1 h
      obtain ⟨rfl, rfl⟩ : t = c :: a ∧ u = b := by simpa [eq_comm] using he
      simp [ih hab]

end Retrace.Text
