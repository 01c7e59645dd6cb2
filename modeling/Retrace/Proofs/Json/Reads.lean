import Retrace.Json.Decode

/-! What a reader takes off the front of a document, and texts between quotes. -/
namespace Retrace.Json

open Retrace.Text

variable {α β : Type} {s t r : Input} {letters : Letters}

/-- Nothing can go on with a value here: the document is over, or a comma, a closing mark or a blank
comes. -/
def AtEnd (r : Input) : Prop :=
  ∀ p, r.head? = some p → p = some ',' ∨ p = some ']' ∨ p = closing ∨ Reader.isGap p = true

/-- A value starts with a character that is no blank and closes nothing. -/
def Starts (s : List Char) : Prop := ∃ c u, s = c :: u ∧ Reader.isGap (some c) = false ∧ c ≠ ']'

/-- A reader takes a text for a value, whatever stands after the end of the value. -/
structure Reads (p : Reader α) (s : List Char) (a : α) : Prop where
  starts : Starts s
  takes : ∀ r, AtEnd r → p (s.map some ++ r) = .ok (a, r)

theorem atEnd_nil : AtEnd [] := by
  intro p h
  simp at h

theorem atEnd_comma (r : Input) : AtEnd (some ',' :: r) := by
  intro p h
  exact Or.inl (by simpa using h.symm)

theorem atEnd_bracket (r : Input) : AtEnd (some ']' :: r) := by
  intro p h
  exact Or.inr (Or.inl (by simpa using h.symm))

theorem atEnd_closing (r : Input) : AtEnd (closing :: r) := by
  intro p h
  exact Or.inr (Or.inr (Or.inl (by simpa using h.symm)))

theorem Reads.map {p : Reader α} {u : List Char} {a : α} (h : Reads p u a) (f : α → β) :
    Reads (do return f (← p)) u (f a) := by
  refine ⟨h.starts, fun r hr => ?_⟩
  show (p (u.map some ++ r) >>= fun x => .ok (f x.1, x.2)) = .ok (f a, r)
  rw [h.takes r hr]
  rfl

namespace Reader

theorem bind_eq {p : Reader α} {f : α → Reader β} {a : α} (h : p s = .ok (a, t)) :
    (p >>= f) s = f a t := by
  simp [bind, StateT.bind, h, Except.bind]

theorem pure_eq (a : α) : (pure a : Reader α) s = .ok (a, s) := rfl

theorem next_eq {p : Piece} (h : isGap p = false) : next (p :: r) = .ok (some p, p :: r) := by
  simp [next, h]

theorem next_head {p : Piece} (hs : s.head? = some p) (h : isGap p = false) :
    next s = .ok (some p, s) := by
  cases s with
  | nil => simp at hs
  | cons q s =>
    obtain rfl : q = p := by simpa using hs
    exact next_eq h

theorem skip_eq (p : Piece) : skip (p :: r) = .ok ((), r) := rfl

theorem word_eq (w : List Char) : word w (w.map some ++ r) = .ok ((), r) := by
  induction w with
  | nil => rfl
  | cons c w ih => simpa [word] using ih

/-! ### Texts -/

/-- The letters of a notation stand for what a reader takes them for. -/
def Sound (letters : Letters) : Prop :=
  ∀ c l, letters.lookup c = some l → letterChar? l = some c

theorem sound_of_forall {letters : Letters}
    (h : ∀ row ∈ letters, letterChar? row.2 = some row.1) : Sound letters := by
  intro c l hl
  obtain ⟨before, after, rfl, -⟩ := List.lookup_eq_some_iff.mp hl
  exact h (c, l) (by simp)

theorem escape_letter {c l : Char} (numbered : Reader Char) (h : letterChar? l = some c) :
    escape numbered (some l :: r) = .ok (c, r) := by
  have hu : l ≠ 'u' := by
    rintro rfl
    simp [letterChar?] at h
  simp only [escape]
  rw [h]

theorem numbered_control {n : Nat} (h : n < 32) :
    numbered ((some '0' :: some '0' :: some (hexDigit (n / 16)) :: some (hexDigit (n % 16)) :: r)) =
      .ok (Char.ofNat n, r) := by
  have hv : ∀ n < 32, hexValue? (hexDigit (n / 16)) = some (n / 16) ∧
      hexValue? (hexDigit (n % 16)) = some (n % 16) := by decide
  have hz : hexValue? '0' = some 0 := by decide
  have hu : codeUnit (some '0' :: some '0' :: some (hexDigit (n / 16)) ::
      some (hexDigit (n % 16)) :: r) = .ok (n, r) := by
    simp only [codeUnit, hz, (hv n h).1, (hv n h).2]
    have : ((0 * 16 + 0) * 16 + n / 16) * 16 + n % 16 = n := by omega
    rw [this]
  have h1 : isSecondHalf n = false := by simp [isSecondHalf]; omega
  have h2 : isFirstHalf n = false := by simp [isFirstHalf]; omega
  rw [numbered, bind_eq hu]
  simp [h1, h2, pure_eq]

/-- One turn of the loop over the pieces of a text takes what stands for one character. -/
theorem piecesFrom_escape (hl : Sound letters) (c : Char) (fuel : Nat) (seen : List Piece) :
    piecesFrom (fuel + 1) seen ((Json.escape letters c).map some ++ r) =
      piecesFrom fuel (some c :: seen) r := by
  unfold Json.escape
  by_cases hq : c = '"'
  · subst hq
    simp [piecesFrom, escape_letter (r := r) _ (show letterChar? '"' = some '"' by decide),
      bind, Except.bind]
  by_cases hb : c = '\\'
  · subst hb
    simp [piecesFrom, escape_letter (r := r) _ (show letterChar? '\\' = some '\\' by decide),
      bind, Except.bind]
  simp only [if_neg hq, if_neg hb]
  cases hm : letters.lookup c with
  | some l =>
    simp [piecesFrom, escape_letter (r := r) _ (hl c l hm), bind, Except.bind]
  | none =>
    by_cases hc : c.toNat < 32
    · have hn := numbered_control (r := r) hc
      rw [Char.ofNat_toNat] at hn
      simp [piecesFrom, hc, escapeCode, escape, hn, bind, Except.bind]
    · simp [piecesFrom, hc, hq, hb]

theorem length_escape_pos (letters : Letters) (c : Char) : 0 < (Json.escape letters c).length := by
  unfold Json.escape
  split
  · simp
  · split
    · simp
    · cases letters.lookup c with
      | some l => simp
      | none => dsimp only; split <;> simp [escapeCode]

/-- The loop ends at the quote after the escaped characters, with the characters themselves. -/
theorem piecesFrom_flatMap (hl : Sound letters) (u : List Char) (seen : List Piece) (fuel : Nat)
    (hf : u.length < fuel) :
    piecesFrom fuel seen ((u.flatMap (Json.escape letters)).map some ++ some '"' :: r) =
      .ok (seen.reverse ++ u.map some, r) := by
  induction u generalizing fuel seen with
  | nil =>
    obtain ⟨fuel, rfl⟩ : ∃ k, fuel = k + 1 := ⟨fuel - 1, by simp at hf; omega⟩
    simp [piecesFrom]
  | cons c u ih =>
    obtain ⟨fuel, rfl⟩ : ∃ k, fuel = k + 1 := ⟨fuel - 1, by omega⟩
    rw [List.flatMap_cons, List.map_append, List.append_assoc, piecesFrom_escape hl,
      ih _ _ (by simpa using hf)]
    simp

theorem map_quoteWith (letters : Letters) (u : List Char) : (quoteWith letters u).map some ++ r =
    some '"' :: ((u.flatMap (Json.escape letters)).map some ++ some '"' :: r) := by
  simp [quoteWith]

theorem starts_quoteWith (letters : Letters) (u : List Char) : Starts (quoteWith letters u) :=
  ⟨'"', _, rfl, by decide, by decide⟩

theorem length_le_length_flatMap {f : α → List β} (hf : ∀ a, 0 < (f a).length) (as : List α) :
    as.length ≤ (as.flatMap f).length := by
  induction as with
  | nil => simp
  | cons a as ih =>
    have := hf a
    simp only [List.flatMap_cons, List.length_append, List.length_cons]
    omega

theorem text_flatMap (hl : Sound letters) (u : List Char) :
    text ((u.flatMap (Json.escape letters)).map some ++ some '"' :: r) =
      .ok (String.ofList u, r) := by
  have hle := length_le_length_flatMap (length_escape_pos letters) u
  have hp := piecesFrom_flatMap (r := r) hl u []
    (((u.flatMap (Json.escape letters)).map some ++ some '"' :: r).length + 1)
    (by simp only [List.length_append, List.length_map, List.length_cons]; omega)
  simp only [text]
  rw [hp]
  simp [bind, Except.bind, spelled?_map_some]

end Reader

end Retrace.Json
