import Mathlib.Logic.Function.Iterate
import Retrace.Proofs.Trace.Symbol

/-! The type that a symbol names, without the qualifiers before it: in whatever order they stand,
all of them are taken off. -/
namespace Retrace.Symbol

open Text

/-- What does not belong to a type when it stands before it. -/
inductive Leading : List Char → Prop
  | blank {c : Char} : isBlank c = true → Leading [c]
  | reference : Leading ['&']
  | word {w : List Char} : w ∈ qualifiers → Leading w

/-- Nothing that may lead a type stands at the front. -/
def Bare (s : List Char) : Prop := ∀ w, Leading w → ¬ w <+: s

/-- What remains of a text when all that leads a type, and the blanks at the end, are taken off. -/
inductive Strips : List Char → List Char → Prop
  | bare {s : List Char} : Bare s → Strips s (trimEnd s)
  | leading {w s r : List Char} : Leading w → Strips s r → Strips (w ++ s) r

/-- The loop that takes qualifiers off a text ends after so many rounds, each of which shortens the
text. -/
def EndsAfter (s : List Char) (k : Nat) : Prop :=
  (∀ j < k, (dropQualifier^[j + 1] s).length < (dropQualifier^[j] s).length) ∧
    (dropQualifier^[k + 1] s).length = (dropQualifier^[k] s).length

variable {c : Char} {q r s t w x : List Char} {fuel : Nat} {f : Char → Bool}

/-! ### There is one way to strip -/

/-- The words among the qualifiers start with none of the other leading parts. -/
theorem head_qualifier (hw : w ∈ qualifiers) (hc : [c] <+: w) :
    isBlank c = false ∧ c ≠ '&' ∧ w ≠ [c] := by
  have hwords : ∀ w ∈ qualifiers, w.head?.all (fun c => !isBlank c && c != '&') = true ∧
      2 ≤ w.length := by decide
  obtain ⟨t, rfl⟩ := hc
  obtain ⟨hhead, hlength⟩ := hwords _ hw
  obtain ⟨hblank, hreference⟩ : isBlank c = false ∧ c ≠ '&' := by simpa using hhead
  refine ⟨hblank, hreference, fun he => ?_⟩
  simp [List.append_right_eq_self.mp he] at hlength

theorem Leading.ne_nil (hw : Leading w) : w ≠ [] := by
  have hwords : ∀ w ∈ qualifiers, w ≠ [] := by decide
  cases hw with
  | blank | reference => exact List.cons_ne_nil _ _
  | word hw => exact hwords _ hw

/-- Of two leading parts neither is the beginning of the other. -/
theorem Leading.eq_of_prefix (hw : Leading w) (hx : Leading x) (h : w <+: x) : w = x := by
  have hwords : ∀ w ∈ qualifiers, ∀ x ∈ qualifiers, w <+: x → w = x := by decide
  cases hw with
  | blank hc =>
    cases hx with
    | blank | reference => simpa using h
    | word hx => exact absurd hc (by simp [(head_qualifier hx h).1])
  | reference =>
    cases hx with
    | blank => simpa using h
    | reference => rfl
    | word hx => exact absurd rfl (head_qualifier hx h).2.1
  | word hw =>
    cases hx with
    | blank | reference =>
      have hone := List.prefix_cons_iff.mp h
      simp only [List.prefix_nil, exists_eq_right] at hone
      exact hone.elim (fun he => absurd he (Leading.word hw).ne_nil) id
    | word hx => exact hwords _ hw _ hx h

theorem Leading.append_inj (hw : Leading w) (hx : Leading x) (h : w ++ s = x ++ t) :
    w = x ∧ s = t := by
  have heq : w = x := by
    rcases List.prefix_or_prefix_of_prefix (List.prefix_append w s) (h ▸ List.prefix_append x t)
      with hwx | hxw
    · exact hw.eq_of_prefix hx hwx
    · exact (hx.eq_of_prefix hw hxw).symm
  subst heq
  exact ⟨rfl, List.append_cancel_left h⟩

/-- What leads a text makes no difference to what remains of it. -/
theorem strips_append_iff (hw : Leading w) : Strips (w ++ s) r ↔ Strips s r := by
  refine ⟨fun h => ?_, .leading hw⟩
  generalize hu : w ++ s = u at h
  cases h with
  | bare hb => exact absurd ⟨s, hu⟩ (hb w hw)
  | leading hx h => exact (hw.append_inj hx hu).2 ▸ h

theorem Strips.unique (h : Strips s r) (h' : Strips s q) : r = q := by
  induction h with
  | bare hb =>
    cases h' with
    | bare => rfl
    | leading hw => exact absurd (List.prefix_append ..) (hb _ hw)
  | leading hw _ ih => exact ih ((strips_append_iff hw).mp h')

/-! ### One round -/

theorem strips_dropWhile_iff (hf : ∀ c, f c = true → Leading [c]) :
    Strips (s.dropWhile f) r ↔ Strips s r := by
  induction s with
  | nil => rfl
  | cons c s ih =>
    rw [List.dropWhile_cons]
    split
    · rename_i hc
      exact ih.trans (strips_append_iff (hf c hc)).symm
    · rfl

/-- A round that finds a word takes off that word; one that finds none takes off no more than blanks
and ampersands. -/
theorem dropQualifier_cases (h : (trimStart s).dropWhile (· == '&') = t) :
    (∃ w ∈ qualifiers, t = w ++ dropQualifier s) ∨
      (dropQualifier s = t ∧ ∀ w ∈ qualifiers, ¬ w <+: t) := by
  have hdrop : dropQualifier s = (qualifiers.findSome? (stripPrefix? · t)).getD t := by
    rw [dropQualifier, h]
  cases hfind : qualifiers.findSome? (stripPrefix? · t) with
  | none =>
    rw [hfind] at hdrop
    have hnone := List.findSome?_eq_none_iff.mp hfind
    exact .inr ⟨hdrop, fun w hw => stripPrefix?_eq_none_iff.mp (hnone w hw)⟩
  | some u =>
    obtain ⟨w, hw, hu⟩ := List.exists_of_findSome?_eq_some hfind
    rw [hfind] at hdrop
    exact .inl ⟨w, hw, hdrop ▸ eq_append_of_stripPrefix? hu⟩

theorem leading_of_ampersand (h : (c == '&') = true) : Leading [c] := by
  obtain rfl := eq_of_beq h
  exact .reference

/-- A round makes no difference to what remains in the end. -/
theorem strips_dropQualifier_iff : Strips (dropQualifier s) r ↔ Strips s r := by
  have hfront : Strips ((trimStart s).dropWhile (· == '&')) r ↔ Strips s r :=
    (strips_dropWhile_iff fun _ => leading_of_ampersand).trans
      (strips_dropWhile_iff fun _ => .blank)
  rw [← hfront]
  rcases dropQualifier_cases rfl with ⟨w, hw, ht⟩ | ⟨ht, -⟩
  · rw [ht]
    exact (strips_append_iff (.word hw)).symm
  · rw [ht]

theorem suffix_dropWhile_trimStart (s : List Char) : (trimStart s).dropWhile (· == '&') <:+ s :=
  (List.dropWhile_suffix _).trans (List.dropWhile_suffix _)

theorem length_dropQualifier_le (s : List Char) : (dropQualifier s).length ≤ s.length := by
  have hle := (suffix_dropWhile_trimStart s).length_le
  rcases dropQualifier_cases rfl with ⟨w, -, ht⟩ | ⟨ht, -⟩
  · rw [ht, List.length_append] at hle
    omega
  · rwa [ht]

theorem not_prefix_of_dropWhile (h : s.dropWhile f = s) (hc : f c = true) : ¬ [c] <+: s := by
  rintro ⟨t, rfl⟩
  have hle := (List.dropWhile_suffix (l := t) f).length_le
  rw [List.singleton_append, List.dropWhile_cons, if_pos hc] at h
  rw [h, List.length_cons] at hle
  omega

/-- A round that takes nothing off has found nothing that leads a type. -/
theorem bare_of_length_eq (h : (dropQualifier s).length = s.length) : Bare s := by
  have hsuffix := suffix_dropWhile_trimStart s
  rcases dropQualifier_cases rfl with ⟨w, hw, ht⟩ | ⟨ht, hnone⟩
  · have hpos := List.length_pos_iff.mpr (Leading.word hw).ne_nil
    have hle := hsuffix.length_le
    rw [ht, List.length_append] at hle
    omega
  · have hboth : (trimStart s).dropWhile (· == '&') = s := hsuffix.eq_of_length (ht ▸ h)
    have hblank : trimStart s = s := by
      refine (List.dropWhile_suffix isBlank).eq_of_length_le ?_
      have hle := (List.dropWhile_suffix (l := trimStart s) (· == '&')).length_le
      rwa [hboth] at hle
    rw [hboth] at hnone
    rw [hblank] at hboth
    intro w hw
    cases hw with
    | blank hc => exact not_prefix_of_dropWhile hblank hc
    | reference => exact not_prefix_of_dropWhile hboth rfl
    | word hw => exact hnone w hw

/-! ### All rounds -/

theorem trim_of_bare (h : Bare s) : trim s = trimEnd s := by
  have hstart : trimStart s = s := by
    cases s with
    | nil => rfl
    | cons c s =>
      rw [trimStart, List.dropWhile_cons, if_neg]
      exact fun hc => h [c] (.blank hc) (List.prefix_append [c] s)
  rw [trim, hstart]

/-- The loop ends, and what it leaves is what remains of the text. -/
theorem strips_dropQualifiersFrom (h : s.length < fuel) :
    Strips s (dropQualifiersFrom fuel s) ∧ ∃ k, k ≤ s.length ∧ EndsAfter s k ∧
      dropQualifiersFrom fuel s = trim (dropQualifier^[k] s) := by
  induction fuel generalizing s with
  | zero => exact absurd h (Nat.not_lt_zero _)
  | succ fuel ih =>
    have hle := length_dropQualifier_le s
    by_cases hstop : (dropQualifier s).length = s.length
    · have hbare := bare_of_length_eq hstop
      rw [dropQualifiersFrom, if_pos hstop]
      refine ⟨trim_of_bare hbare ▸ .bare hbare, 0, Nat.zero_le _, ⟨nofun, hstop⟩, rfl⟩
    · obtain ⟨hstrips, k, hk, ⟨hshorter, hlast⟩, heq⟩ := ih (s := dropQualifier s) (by omega)
      rw [dropQualifiersFrom, if_neg hstop]
      refine ⟨strips_dropQualifier_iff.mp hstrips, k + 1, by omega, ⟨fun j hj => ?_, hlast⟩, heq⟩
      cases j with
      | zero => exact Nat.lt_of_le_of_ne hle hstop
      | succ j => exact hshorter j (by omega)

theorem strips_dropQualifiers (s : List Char) : Strips s (dropQualifiers s) :=
  (strips_dropQualifiersFrom (Nat.lt_succ_self _)).1

theorem exists_endsAfter (s : List Char) :
    ∃ k, k ≤ s.length ∧ EndsAfter s k ∧ dropQualifiers s = trim (dropQualifier^[k] s) :=
  (strips_dropQualifiersFrom (Nat.lt_succ_self _)).2

theorem dropQualifiers_eq_iff : dropQualifiers s = r ↔ Strips s r :=
  ⟨fun h => h ▸ strips_dropQualifiers s, fun h => (strips_dropQualifiers s).unique h⟩

end Retrace.Symbol
