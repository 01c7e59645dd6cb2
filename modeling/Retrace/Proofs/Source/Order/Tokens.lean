import Mathlib.Order.Nat
import Retrace.Source.Lexer

/-! The tokens of a text stand one after the other: each starts on the line where the one before it
ends or further down, and what a group holds stands between its marks. -/
namespace Retrace.Source

variable {lo hi lo' hi' m n : Nat} {t : Token} {ts us done : List Token} {k : Cursor}

namespace Token

/-- The line where a group is closed. Any other token is taken to end where it starts. -/
def lastLine : Token → Nat
  | group _ _ _ close _ => close.line
  | t => t.start.line

mutual
/-- What a group holds stands between its marks. -/
def Nested : Token → Prop
  | group _ inner start close _ => Between start.line close.line inner
  | word .. | lifetime .. | mark .. | literal .. => True

/-- Tokens stand one after the other between two lines. -/
def Between (lo hi : Nat) : List Token → Prop
  | [] => lo ≤ hi
  | t :: ts => lo ≤ t.start.line ∧ Nested t ∧ Between t.lastLine hi ts
end

theorem between_inner {d : Delimiter} {start close : Place} {stop : Nat}
    (h : (group d us start close stop).Nested) : Between start.line close.line us := by
  rwa [Nested] at h

mutual
theorem Nested.le : (t : Token) → t.Nested → t.start.line ≤ t.lastLine
  | group _ inner _ _ _, h => Between.le inner h
  | word .., _ | lifetime .., _ | mark .., _ | literal .., _ => Nat.le_refl _

theorem Between.le {lo hi : Nat} : (ts : List Token) → Between lo hi ts → lo ≤ hi
  | [], h => h
  | t :: ts, h => h.1.trans ((Nested.le t h.2.1).trans (Between.le ts h.2.2))
end

theorem Between.mono (h : Between lo hi ts) (hlo : lo' ≤ lo) (hhi : hi ≤ hi') :
    Between lo' hi' ts := by
  induction ts generalizing lo lo' with
  | nil => exact hlo.trans (h.trans hhi)
  | cons t ts ih => exact ⟨hlo.trans h.1, h.2.1, ih h.2.2 (Nat.le_refl _)⟩

theorem Between.append (h : Between lo m ts) (h' : Between m hi us) : Between lo hi (ts ++ us) := by
  induction ts generalizing lo with
  | nil => exact h'.mono h (Nat.le_refl _)
  | cons t ts ih => exact ⟨h.1, h.2.1, ih h.2.2⟩

theorem Between.concat (h : Between lo t.start.line ts) (ht : t.Nested) :
    Between lo t.lastLine (ts ++ [t]) :=
  h.append ⟨Nat.le_refl _, ht, Nat.le_refl _⟩

theorem between_group {d : Delimiter} {start close : Place} {stop : Nat}
    (h : Between lo start.line ts) (hinner : Between start.line close.line us) :
    Between lo close.line (ts ++ [.group d us start close stop]) :=
  Between.concat (t := .group d us start close stop) h (by rwa [Nested])

/-- What is left of some tokens stands one after the other, too. -/
theorem Between.suffix (h : Between lo hi ts) (hs : us <:+ ts) : ∃ m, lo ≤ m ∧ Between m hi us := by
  obtain ⟨before, rfl⟩ := hs
  induction before generalizing lo with
  | nil => exact ⟨lo, Nat.le_refl _, h⟩
  | cons t before ih =>
    obtain ⟨m, hm, hus⟩ := ih h.2.2
    exact ⟨m, h.1.trans ((Nested.le t h.2.1).trans hm), hus⟩

end Token

open Token

/-! ### The tokens of a text -/

namespace Cursor

theorem line_le_after (p : Place) (c : Char) : p.line ≤ (p.after c).line := by
  rw [Place.after]
  split
  · exact Nat.le_succ _
  · exact Nat.le_refl _

theorem line_skip_mono (k : Cursor) (h : m ≤ n) :
    (k.skip m).place.line ≤ (k.skip n).place.line := by
  induction n generalizing k m with
  | zero => rw [Nat.le_zero.mp h]
  | succ n ih =>
    obtain ⟨p, s⟩ := k
    cases s with
    | nil => cases m <;> exact Nat.le_refl _
    | cons c s =>
      cases m with
      | zero => exact (line_le_after p c).trans (ih ⟨p.after c, s⟩ (Nat.zero_le n))
      | succ m => exact ih ⟨p.after c, s⟩ (Nat.le_of_succ_le_succ h)

theorem line_le_skip (k : Cursor) (n : Nat) : k.place.line ≤ (k.skip n).place.line :=
  k.line_skip_mono (Nat.zero_le n)

end Cursor

/-- The attribute of a documentation comment stands where the comment does. -/
theorem between_docComment (c : DocComment) (start last : Place) (h : start.line ≤ last.line) :
    Between start.line last.line (c.tokens start last) := by
  have hbody (name : Name) (text : List Char) (stop : Nat) : Between start.line last.line
      [.word name start stop, .mark '=' false start stop, .literal text start stop] :=
    ⟨Nat.le_refl _, trivial, Nat.le_refl _, trivial, Nat.le_refl _, trivial, h⟩
  have hle := Nat.le_refl start.line
  unfold DocComment.tokens
  cases c.inner
  · exact ⟨hle, trivial, hle, hbody _ _ _, Nat.le_refl _⟩
  · exact ⟨hle, trivial, hle, trivial, hle, hbody _ _ _, Nat.le_refl _⟩

theorem leaf_place {s : List Char} {p : Place} (h : leaf? s p = some (t, n)) :
    t.start = p ∧ t.Nested ∧ t.lastLine = p.line := by
  have hleaf {t' : Token} {n' : Nat} (hstart : t'.start = p) (hn : t'.Nested)
      (hlast : t'.lastLine = t'.start.line) (ht : (t', n') = (t, n)) :
      t.start = p ∧ t.Nested ∧ t.lastLine = p.line := by
    obtain ⟨rfl, -⟩ := Prod.mk.inj ht
    exact ⟨hstart, hn, hlast.trans (congrArg Place.line hstart)⟩
  unfold leaf? at h
  split at h
  · exact hleaf rfl (by simp [Nested]) rfl (Option.some.inj h)
  · split at h
    · obtain ⟨_, -, h⟩ := Option.map_eq_some_iff.mp h
      exact hleaf rfl (by simp [Nested]) rfl h
    · exact hleaf rfl (by simp [Nested]) rfl (Option.some.inj h)
    · split at h
      · cases h
      · split at h
        · exact hleaf rfl (by simp [Nested]) rfl (Option.some.inj h)
        · obtain ⟨_, -, h⟩ := Option.map_eq_some_iff.mp h
          exact hleaf rfl (by simp [Nested]) rfl h

/-- The tokens before the groups that are open, with the line where those of the innermost start. -/
def Opened : List OpenGroup → Nat → Prop
  | [], lo => lo = 1
  | g :: outer, lo =>
    lo = g.start.line ∧ ∃ lo', Opened outer lo' ∧ Between lo' g.start.line g.before.reverse

theorem Opened.cons {groups : List OpenGroup} {g : OpenGroup} (ho : Opened groups lo)
    (h : Between lo g.start.line g.before.reverse) : Opened (g :: groups) g.start.line :=
  ⟨rfl, lo, ho, h⟩

theorem between_leaf {s : List Char} (hd : Between lo k.place.line done.reverse)
    (h : leaf? s k.place = some (t, n)) :
    Between lo (k.skip n).place.line (t :: done).reverse := by
  obtain ⟨hstart, hn, hlast⟩ := leaf_place h
  rw [List.reverse_cons]
  refine (Between.concat (hstart ▸ hd) hn).mono (Nat.le_refl _) ?_
  exact hlast ▸ k.line_le_skip n

theorem between_tokensFrom {groups : List OpenGroup} {fuel : Nat}
    (ho : Opened groups lo) (hd : Between lo k.place.line done.reverse)
    (h : tokensFrom fuel k groups done = .ok ts) : ∃ hi, Between 1 hi ts := by
  induction fuel generalizing k groups done lo with
  | zero => cases h
  | succ fuel ih =>
    unfold tokensFrom at h
    have hgap := hd.mono (Nat.le_refl _) (k.line_le_skip (gapLength k.rest))
    generalize k.skip (gapLength k.rest) = k at h hgap
    dsimp only at h
    split at h
    -- A documentation comment.
    · rename_i c _
      have hlast := k.line_le_skip (c.length - 1)
      refine ih ho ?_ h
      rw [List.reverse_append, List.reverse_reverse]
      refine hgap.append ((between_docComment c k.place _ hlast).mono (Nat.le_refl _) ?_)
      exact k.line_skip_mono (Nat.sub_le _ _)
    · cases hrest : k.rest with
      | nil =>
        rw [hrest] at h
        cases groups with
        | nil =>
          cases ho
          obtain rfl := Except.ok.inj h
          exact ⟨_, hgap⟩
        | cons g outer => cases h
      | cons c s =>
        rw [hrest] at h
        dsimp only at h
        split at h
        -- A group opens here, or the placeholder of a token.
        · split at h
          · split at h
            · exact ih ho (between_leaf hgap ‹_›) h
            · cases h
          · refine ih (ho.cons (g := ⟨_, k.place, done⟩) hgap) ?_ h
            exact k.line_le_skip 1
        -- A group ends here.
        · cases groups with
          | nil => cases h
          | cons g outer =>
            dsimp only at h
            split at h
            · obtain ⟨rfl, lo', ho, hbefore⟩ := ho
              refine ih ho ?_ h
              rw [List.reverse_cons]
              exact (between_group hbefore hgap).mono (Nat.le_refl _) (k.line_le_skip 1)
            · cases h
        · split at h
          · exact ih ho (between_leaf hgap ‹_›) h
          · cases h

/-- The tokens of a text stand one after the other. -/
theorem between_tokens {s : List Char} (h : tokens s = .ok ts) : ∃ hi, Between 1 hi ts := by
  have ho : Opened [] 1 := rfl
  unfold tokens at h
  refine between_tokensFrom ho ?_ h
  split
  · exact (Cursor.ofText s).line_le_skip 1
  · exact Nat.le_refl 1

end Retrace.Source
