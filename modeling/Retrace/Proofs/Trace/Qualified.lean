import Mathlib.Data.List.Infix
import Retrace.Proofs.Trace.Qualifiers
import Retrace.Trace.Denylist

/-! Symbols that start with a type in angle brackets, and perhaps a trait after it: where they are
split, and when a denylist leaves them out. -/
namespace Retrace.Symbol

open Text

variable {c : Char} {depth : Int} {p q r s t rest seen front back : List Char}
  {found : Option (List Char)}

/-! ### Brackets that close -/

/-- No bracket of a text closes before it opens, and all of them close. -/
structure Nests (s : List Char) : Prop where
  closed : surplus s = 0
  opened : ∀ p, p <+: s → 0 ≤ surplus p

/-- A bracket closes that was open before the text. What stands before the end nests, and does not
make an arrow of it. -/
def Closes (depth : Int) (s : List Char) : Prop :=
  ∃ p rest, s = p ++ '>' :: rest ∧ p.getLast? ≠ some '-' ∧ depth + surplus p = 0 ∧
    ∀ q, q <+: p → 0 ≤ depth + surplus q

instance (s : List Char) : Decidable (Nests s) :=
  decidable_of_iff (surplus s = 0 ∧ ∀ p ∈ s.inits, 0 ≤ surplus p)
    ⟨fun h => ⟨h.1, fun p hp => h.2 p ((List.mem_inits p s).mpr hp)⟩,
      fun h => ⟨h.closed, fun p hp => h.opened p ((List.mem_inits p s).mp hp)⟩⟩

theorem surplus_nil : surplus [] = 0 := rfl

theorem not_closes_nil : ¬ Closes depth [] := by
  rintro ⟨p, rest, h, -⟩
  simp at h

theorem closes_here : Closes 0 ('>' :: s) := by
  refine ⟨[], s, rfl, nofun, rfl, fun q hq => ?_⟩
  rw [List.prefix_nil.mp hq, surplus_nil]
  exact Int.le_refl 0

/-- The brackets that are open after one more character of a text, and after a part of the rest. -/
theorem depth_cons (ha : ¬ (c = '-' ∧ s.head? = some '>')) (hp : p <+: s) :
    depth + surplus (c :: p) = depthAfter depth c + surplus p := by
  refine surplus_cons fun h => ha ⟨h.1, ?_⟩
  obtain ⟨t, rfl⟩ := hp
  rw [List.head?_append, h.2, Option.some_or]

theorem closes_cons (hdepth : 0 ≤ depth) (ha : ¬ (c = '-' ∧ s.head? = some '>'))
    (hc : ¬ (c = '>' ∧ depth = 0)) : Closes depth (c :: s) ↔ Closes (depthAfter depth c) s := by
  constructor
  · rintro ⟨p, rest, hs, hlast, hclosed, hopened⟩
    cases p with
    | nil =>
      rw [surplus_nil, Int.add_zero] at hclosed
      exact absurd ⟨(List.cons.inj hs).1, hclosed⟩ hc
    | cons c' p =>
      obtain ⟨rfl, rfl⟩ := List.cons.inj hs
      refine ⟨p, rest, rfl, getLast?_ne_of_cons hlast, ?_, fun q hq => ?_⟩
      · rw [← depth_cons ha (List.prefix_append ..), hclosed]
      · rw [← depth_cons ha (hq.trans (List.prefix_append ..))]
        exact hopened _ (List.cons_prefix_cons.mpr ⟨rfl, hq⟩)
  · rintro ⟨p, rest, rfl, hlast, hclosed, hopened⟩
    refine ⟨c :: p, rest, rfl, ?_, ?_, fun q hq => ?_⟩
    · cases p with
      | nil => exact fun hdash => ha ⟨Option.some.inj hdash, rfl⟩
      | cons d p => exact hlast
    · rw [depth_cons ha (List.prefix_append ..), hclosed]
    · rcases List.prefix_cons_iff.mp hq with rfl | ⟨q, rfl, hrest⟩
      · rwa [surplus_nil, Int.add_zero]
      · rw [depth_cons ha (hrest.trans (List.prefix_append ..))]
        exact hopened q hrest

theorem closes_arrow (hdepth : 0 ≤ depth) : Closes depth ('-' :: '>' :: s) ↔ Closes depth s := by
  have hdash : surplus ['-'] = 0 := rfl
  constructor
  · rintro ⟨_ | ⟨_, _ | ⟨_, p⟩⟩, rest, hs, hlast, hclosed, hopened⟩
    · simp at hs
    · exact absurd (congrArg List.head? hs).symm hlast
    · obtain ⟨rfl, rfl, rfl⟩ : _ = '-' ∧ _ = '>' ∧ s = p ++ '>' :: rest := by
        simpa [eq_comm] using hs
      refine ⟨p, rest, rfl, getLast?_ne_of_cons (getLast?_ne_of_cons hlast), ?_, fun q hq => ?_⟩
      · rwa [surplus_arrow] at hclosed
      · have harrow := hopened ('-' :: '>' :: q) (by simpa using hq)
        rwa [surplus_arrow] at harrow
  · rintro ⟨p, rest, rfl, hlast, hclosed, hopened⟩
    refine ⟨'-' :: '>' :: p, rest, rfl, ?_, by rwa [surplus_arrow], fun q hq => ?_⟩
    · cases p with
      | nil => decide
      | cons d p => exact hlast
    · rcases List.prefix_cons_iff.mp hq with rfl | ⟨q, rfl, htail⟩
      · rwa [surplus_nil, Int.add_zero]
      · rcases List.prefix_cons_iff.mp htail with rfl | ⟨q, rfl, hrest⟩
        · rwa [hdash, Int.add_zero]
        · rw [surplus_arrow]
          exact hopened q hrest

theorem depthAfter_nonneg (hdepth : 0 ≤ depth) (hc : ¬ (c = '>' ∧ depth = 0)) :
    0 ≤ depthAfter depth c := by
  unfold depthAfter
  split
  · omega
  · split
    · rename_i hclose
      have hne : depth ≠ 0 := fun h => hc ⟨hclose, h⟩
      omega
    · exact hdepth

/-- What divides a type from a trait. -/
def asMark : List Char := " as ".toList

theorem closes_as (hdepth : 0 ≤ depth) :
    Closes depth (' ' :: 'a' :: 's' :: ' ' :: s) ↔ Closes depth s := by
  have hplain (c : Char) (hc : c ∈ asMark) (s : List Char) :
      Closes depth (c :: s) ↔ Closes depth s := by
    obtain ⟨ha, hclose, hopen⟩ : c ≠ '-' ∧ c ≠ '>' ∧ c ≠ '<' := by
      have hmark : asMark.all (fun c => c ≠ '-' ∧ c ≠ '>' ∧ c ≠ '<') = true := by decide
      exact of_decide_eq_true (List.all_eq_true.mp hmark c hc)
    rw [closes_cons hdepth (fun h => ha h.1) (fun h => hclose h.1), depthAfter, if_neg hopen,
      if_neg hclose]
  rw [hplain, hplain, hplain, hplain] <;> decide

/-- A scan finds the end of a bracket just if the bracket closes. -/
theorem isSome_qualifiedFrom_iff (hdepth : 0 ≤ depth) :
    (qualifiedFrom depth found seen s).isSome = true ↔ Closes depth s := by
  fun_induction qualifiedFrom depth found seen s with
  | case1 => simp [not_closes_nil]
  | case2 depth found seen s ih => rw [ih hdepth, closes_arrow hdepth]
  | case3 depth found seen s h ih => rw [ih hdepth, closes_as hdepth]
  | case4 depth found seen s h ih => rw [ih hdepth, closes_as hdepth]
  | case5 depth seen c s _ _ h t =>
    obtain ⟨rfl, rfl⟩ := h
    simp [closes_here]
  | case6 depth seen c s _ _ h =>
    obtain ⟨rfl, rfl⟩ := h
    simp [closes_here]
  | case7 depth found seen c s ha _ h depth' ih =>
    have harrow : ¬ (c = '-' ∧ s.head? = some '>') := by
      rintro ⟨rfl, hs⟩
      obtain ⟨s, rfl⟩ := List.head?_eq_some_iff.mp hs
      exact ha s rfl rfl
    rw [closes_cons hdepth harrow h]
    exact ih (depthAfter_nonneg hdepth h)

/-! ### The scan of a text that nests -/

theorem qualifiedFrom_arrow : qualifiedFrom depth found seen ('-' :: '>' :: s) =
    qualifiedFrom depth found ('>' :: '-' :: seen) s := by
  rw [qualifiedFrom]

/-- The first mark outside brackets ends the type. -/
theorem qualifiedFrom_as : qualifiedFrom 0 none seen (asMark ++ s) =
    qualifiedFrom 0 (some seen.reverse) [] s := by
  have hmark : asMark ++ s = ' ' :: 'a' :: 's' :: ' ' :: s := rfl
  rw [hmark, qualifiedFrom, if_pos ⟨rfl, rfl⟩]

theorem qualifiedFrom_close : qualifiedFrom 0 found seen ('>' :: s) =
    some (found.elim (seen.reverse, none) fun t => (t, some seen.reverse)) := by
  cases found <;> simp [qualifiedFrom]

theorem qualifiedFrom_plain (ha : ¬ (c = '-' ∧ s.head? = some '>')) (hc : ¬ (c = '>' ∧ depth = 0))
    (hm : ¬ asMark <+: c :: s) : qualifiedFrom depth found seen (c :: s) =
      qualifiedFrom (depthAfter depth c) found (c :: seen) s := by
  rw [qualifiedFrom.eq_def]
  split
  · rename_i h
    cases h
  · rename_i h
    obtain ⟨rfl, rfl⟩ := List.cons.inj h
    exact absurd ⟨rfl, rfl⟩ ha
  · rename_i h
    exact absurd (h ▸ List.prefix_append asMark _) hm
  · rename_i h
    obtain ⟨rfl, rfl⟩ := List.cons.inj h
    rw [if_neg hc]
    rfl

/-- A character that neither starts an arrow nor closes the outermost bracket nor starts the mark
that ends the type is passed over alone. -/
theorem qualifiedFrom_cons (ha : ¬ (c = '-' ∧ s.head? = some '>')) (hc : ¬ (c = '>' ∧ depth = 0))
    (has : asMark <+: c :: s → ¬ (depth = 0 ∧ found = none)) :
    qualifiedFrom depth found seen (c :: s) =
      qualifiedFrom (depthAfter depth c) found (c :: seen) s := by
  induction hk : s.length using Nat.strongRecOn generalizing c s seen with
  | _ k ih =>
    subst hk
    by_cases hm : asMark <+: c :: s
    · -- A mark elsewhere is passed over as a whole, and its last blank may start the next one.
      obtain ⟨s', hs⟩ := hm
      obtain ⟨rfl, rfl⟩ : c = ' ' ∧ s = 'a' :: 's' :: ' ' :: s' := by
        simpa [asMark, eq_comm] using hs
      have hin := has (List.prefix_append asMark s')
      have hin' : ¬ (depth = 0 ∧ found.isNone = true) := by simpa using hin
      have hlast : qualifiedFrom depth found ('s' :: 'a' :: ' ' :: seen) (' ' :: s') =
          qualifiedFrom depth found (' ' :: 's' :: 'a' :: ' ' :: seen) s' :=
        ih s'.length (by simp only [List.length_cons]; omega) (by simp) (by simp) (fun _ => hin) rfl
      have hletter (c : Char) (hc : c ∈ ['a', 's']) (seen s : List Char) :
          qualifiedFrom depth found seen (c :: s) = qualifiedFrom depth found (c :: seen) s := by
        simp only [List.mem_cons, List.not_mem_nil, or_false] at hc
        rcases hc with rfl | rfl <;>
          exact qualifiedFrom_plain (by simp) (by simp) (by simp [asMark])
      calc qualifiedFrom depth found seen (' ' :: 'a' :: 's' :: ' ' :: s')
          = qualifiedFrom depth found (' ' :: 's' :: 'a' :: ' ' :: seen) s' := by
            rw [qualifiedFrom, if_neg hin']
        _ = qualifiedFrom depth found ('s' :: 'a' :: ' ' :: seen) (' ' :: s') := hlast.symm
        _ = qualifiedFrom depth found (' ' :: seen) ('a' :: 's' :: ' ' :: s') := by
            rw [hletter 'a' (by simp), hletter 's' (by simp)]
    · exact qualifiedFrom_plain ha hc hm

/-- A scan passes over a text before another one: no bracket closes in it that was open before, and
the mark that ends the type does not start in it. -/
structure Passes (depth : Int) (found : Option (List Char)) (s t : List Char) : Prop where
  last : ¬ (s.getLast? = some '-' ∧ t.head? = some '>')
  opened : ∀ p, p <+: s → 0 ≤ depth + surplus p
  noMark : found = none → ∀ front back, s ++ t = front ++ (asMark ++ back) →
    depth + surplus front = 0 → s.length ≤ front.length

theorem Passes.arrow (h : Passes depth found ('-' :: '>' :: s) t) : Passes depth found s t where
  last := fun hs => h.last ⟨by simp [List.getLast?_cons, hs.1], hs.2⟩
  opened := fun p hp => by
    rw [← surplus_arrow]
    exact h.opened _ (by simpa using hp)
  noMark := fun hnone front back hs hfront => by
    have hle := h.noMark hnone ('-' :: '>' :: front) back (by simp [hs]) (by rwa [surplus_arrow])
    simpa using hle

theorem Passes.tail (h : Passes depth found (c :: s) t) (ha : ¬ (c = '-' ∧ s.head? = some '>')) :
    Passes (depthAfter depth c) found s t where
  last := fun hs => h.last ⟨by simp [List.getLast?_cons, hs.1], hs.2⟩
  opened := fun p hp => by
    rw [← depth_cons ha hp]
    exact h.opened _ (by simpa using hp)
  noMark := fun hnone front back hs hfront => by
    by_contra hlt
    have hp : front <+: s := List.prefix_of_prefix_length_le
      (hs ▸ List.prefix_append front _) (List.prefix_append s t) (by omega)
    have hle := h.noMark hnone (c :: front) back (by simp [hs]) (by rw [depth_cons ha hp, hfront])
    exact hlt (by simpa using hle)

theorem Passes.next (h : Passes depth found (c :: s) t) (ha : ¬ (c = '-' ∧ s.head? = some '>')) :
    qualifiedFrom depth found seen (c :: (s ++ t)) =
      qualifiedFrom (depthAfter depth c) found (c :: seen) (s ++ t) := by
  apply qualifiedFrom_cons
  · rintro ⟨rfl, hs⟩
    cases s with
    | nil => exact h.last ⟨rfl, hs⟩
    | cons d s => exact ha ⟨rfl, hs⟩
  · rintro ⟨rfl, rfl⟩
    have hone := h.opened ['>'] (by simp)
    exact absurd hone (by decide)
  · rintro ⟨back, hs⟩ ⟨rfl, hnone⟩
    have hle := h.noMark hnone [] back hs.symm rfl
    simp at hle

/-- A text that is passed over changes nothing but the number of open brackets. -/
theorem qualifiedFrom_append (h : Passes depth found s t) :
    qualifiedFrom depth found seen (s ++ t) =
      qualifiedFrom (depth + surplus s) found (s.reverse ++ seen) t := by
  induction hk : s.length using Nat.strongRecOn generalizing depth s seen with
  | _ k ih =>
    subst hk
    cases s with
    | nil => rw [surplus_nil, Int.add_zero]; rfl
    | cons c s =>
      by_cases ha : c = '-' ∧ s.head? = some '>'
      · obtain ⟨rfl, hs⟩ := ha
        obtain ⟨s, rfl⟩ := List.head?_eq_some_iff.mp hs
        have hrest : qualifiedFrom depth found ('>' :: '-' :: seen) (s ++ t) = _ :=
          ih s.length (by simp only [List.length_cons]; omega) h.arrow rfl
        rw [List.cons_append, List.cons_append, qualifiedFrom_arrow, hrest, surplus_arrow]
        simp
      · have hrest : qualifiedFrom (depthAfter depth c) found (c :: seen) (s ++ t) = _ :=
          ih s.length (by simp) (h.tail ha) rfl
        rw [List.cons_append, h.next ha, hrest, depth_cons ha List.prefix_rfl]
        simp

/-! ### Qualified symbols -/

/-- A symbol that a type qualifies. -/
def ofType (s rest : List Char) : List Char := '<' :: (s ++ '>' :: rest)

/-- A symbol that a type and a trait qualify. -/
def ofTrait (s t rest : List Char) : List Char := '<' :: (s ++ (asMark ++ (t ++ '>' :: rest)))

/-- The mark that divides a type from a trait stands after the text, and outside of brackets nowhere
before. -/
def Alone (s : List Char) : Prop :=
  ∀ front back, s ++ asMark = front ++ (asMark ++ back) → surplus front = 0 → back = []

/-- A text that may stand as the type in a qualified symbol. -/
structure SelfType (s : List Char) : Prop where
  nests : Nests s
  last : s.getLast? ≠ some '-'
  noAs : ¬ "as ".toList <+: s
  alone : Alone s

theorem alone_iff : Alone s ↔ ∀ front ∈ (s ++ asMark).inits,
    asMark <+: (s ++ asMark).drop front.length → surplus front = 0 → front.length = s.length := by
  constructor
  · rintro h front hf ⟨back, hback⟩ hfront
    have hs : s ++ asMark = front ++ (asMark ++ back) := by
      obtain ⟨tail, htail⟩ := (List.mem_inits _ _).mp hf
      rw [hback, ← htail, List.drop_left]
    obtain rfl := h front back hs hfront
    have hlength := congrArg List.length hs
    simp only [List.length_append, List.length_nil] at hlength
    omega
  · intro h front back hs hfront
    have hf : front ∈ (s ++ asMark).inits := (List.mem_inits _ _).mpr ⟨_, hs.symm⟩
    have hmark : asMark <+: (s ++ asMark).drop front.length := by
      rw [hs, List.drop_left]
      exact List.prefix_append ..
    have hlength := congrArg List.length hs
    simp only [List.length_append, h front hf hmark hfront] at hlength
    exact List.length_eq_zero_iff.mp (by omega)

instance (s : List Char) : Decidable (Alone s) := decidable_of_iff _ alone_iff.symm

instance (s : List Char) : Decidable (SelfType s) :=
  decidable_of_iff (Nests s ∧ s.getLast? ≠ some '-' ∧ ¬ "as ".toList <+: s ∧ Alone s)
    ⟨fun h => ⟨h.1, h.2.1, h.2.2.1, h.2.2.2⟩, fun h => ⟨h.nests, h.last, h.noAs, h.alone⟩⟩

theorem Alone.le_length (h : Alone s) (hs : front ++ asMark <+: s ++ asMark)
    (hfront : surplus front = 0) : s.length ≤ front.length := by
  obtain ⟨back, hs⟩ := hs
  obtain rfl := h front back (by simp [← hs]) hfront
  have hlength := congrArg List.length hs
  simp only [List.length_append, List.length_nil] at hlength
  omega

theorem passes_as (hs : Nests s) (ha : Alone s) : Passes 0 none s (asMark ++ t) where
  last := fun h => by simp [asMark] at h
  opened := fun p hp => by rw [Int.zero_add]; exact hs.opened p hp
  noMark := fun _ front back h hfront => by
    rw [Int.zero_add] at hfront
    by_contra hlt
    have hfront' : front ++ asMark <+: s ++ (asMark ++ t) := by
      rw [h, ← List.append_assoc]
      exact List.prefix_append ..
    have hself : s ++ asMark <+: s ++ (asMark ++ t) := by
      rw [← List.append_assoc]
      exact List.prefix_append ..
    have hlength : (front ++ asMark).length ≤ (s ++ asMark).length := by
      simp only [List.length_append]
      omega
    exact hlt (ha.le_length (List.prefix_of_prefix_length_le hfront' hself hlength) hfront)

/-- What does not hold the character after a text, and starts in the text, ends in it too. -/
theorem prefix_of_not_mem (h : front ++ p <+: s ++ c :: rest) (hc : c ∉ p)
    (hle : front.length ≤ s.length) : front ++ p <+: s := by
  obtain ⟨q, rfl⟩ : front <+: s := List.prefix_of_prefix_length_le
    ((List.prefix_append front p).trans h) (List.prefix_append s _) hle
  rw [List.append_assoc, List.prefix_append_right_inj] at h
  rw [List.prefix_append_right_inj]
  rcases List.prefix_or_prefix_of_prefix h (List.prefix_append q (c :: rest)) with hp | ⟨u, rfl⟩
  · exact hp
  · rw [List.prefix_append_right_inj] at h
    rcases List.prefix_cons_iff.mp h with rfl | ⟨u, rfl, -⟩
    · simp
    · exact absurd (List.mem_append_right q List.mem_cons_self) hc

/-- The mark does not start in the text and end behind the bracket. -/
theorem passes_close (hs : Nests s) (hlast : s.getLast? ≠ some '-')
    (ha : found = none → Alone s) : Passes 0 found s ('>' :: rest) where
  last := fun h => hlast h.1
  opened := fun p hp => by rw [Int.zero_add]; exact hs.opened p hp
  noMark := fun hnone front back h hfront => by
    rw [Int.zero_add] at hfront
    by_contra hlt
    have hprefix : front ++ asMark <+: s ++ '>' :: rest := by
      rw [h, ← List.append_assoc]
      exact List.prefix_append ..
    have hmark := prefix_of_not_mem hprefix (by decide) (by omega)
    exact hlt ((ha hnone).le_length (hmark.trans (List.prefix_append s asMark)) hfront)

theorem qualified?_ofTrait (hs : Nests s) (ha : Alone s) (ht : Nests t)
    (hlast : t.getLast? ≠ some '-') :
    qualified? (ofTrait s t rest) = some (dropQualifiers s, some (trim t)) := by
  have hscan :
      qualifiedFrom 0 none [] (s ++ (asMark ++ (t ++ '>' :: rest))) = some (s, some t) := by
    have htrait : Passes 0 (some s) t ('>' :: rest) := passes_close ht hlast (by simp)
    rw [qualifiedFrom_append (passes_as hs ha), hs.closed, Int.add_zero, qualifiedFrom_as,
      List.append_nil, List.reverse_reverse, qualifiedFrom_append htrait, ht.closed, Int.add_zero,
      qualifiedFrom_close]
    simp
  rw [ofTrait, qualified?, hscan]
  rfl

theorem qualified?_ofType (hs : SelfType s) :
    qualified? (ofType s rest) = some (dropQualifiers s, none) := by
  have hscan : qualifiedFrom 0 none [] (s ++ '>' :: rest) = some (s, none) := by
    rw [qualifiedFrom_append (passes_close hs.nests hs.last fun _ => hs.alone), hs.nests.closed,
      Int.add_zero, qualifiedFrom_close]
    simp
  rw [ofType, qualified?, hscan]
  rfl

/-- A symbol has no parts just if no bracket opens it, or it never closes. -/
theorem qualified?_eq_none_iff :
    qualified? s = none ↔ s.head? ≠ some '<' ∨ ¬ Closes 0 s.tail := by
  cases s with
  | nil => simp [qualified?]
  | cons c s =>
    by_cases hc : c = '<'
    · subst hc
      have hiff : (qualifiedFrom 0 none [] s).isSome = true ↔ Closes 0 s :=
        isSome_qualifiedFrom_iff (Int.le_refl 0)
      simp [qualified?, ← hiff]
    · rw [qualified?]
      · simp [hc]
      · simpa using hc

/-! ### Qualifiers before the type -/

/-- The marks that may be stacked before a type. -/
def qualifierMarks : List (List Char) :=
  ["&", "&mut ", "dyn ", "*const ", "*mut "].map String.toList

/-- Some of these marks, one after another. -/
def Stacked (q : List Char) : Prop :=
  ∃ marks : List (List Char), (∀ m ∈ marks, m ∈ qualifierMarks) ∧ q = marks.flatten

theorem Stacked.plain (h : Stacked q) : ∀ c ∈ q, c ∉ ['<', '>', '-', 'a'] := by
  obtain ⟨marks, hmarks, rfl⟩ := h
  have hall : ∀ m ∈ qualifierMarks, m.all (fun c => c ∉ ['<', '>', '-', 'a']) = true := by decide
  intro c hc
  obtain ⟨m, hm, hc⟩ := List.mem_flatten.mp hc
  exact of_decide_eq_true (List.all_eq_true.mp (hall m (hmarks m hm)) c hc)

theorem strips_mark (hm : p ∈ qualifierMarks) : Strips (p ++ s) r ↔ Strips s r := by
  have hwords : "mut ".toList ∈ qualifiers ∧ "dyn ".toList ∈ qualifiers ∧
      "*const ".toList ∈ qualifiers ∧ "*mut ".toList ∈ qualifiers := by decide
  obtain ⟨hmut, hdyn, hconst, hptr⟩ := hwords
  simp only [qualifierMarks, List.map_cons, List.map_nil, List.mem_cons, List.not_mem_nil,
    or_false] at hm
  rcases hm with rfl | rfl | rfl | rfl | rfl
  · exact strips_append_iff .reference
  · exact (strips_append_iff (s := "mut ".toList ++ s) .reference).trans
      (strips_append_iff (.word hmut))
  · exact strips_append_iff (.word hdyn)
  · exact strips_append_iff (.word hconst)
  · exact strips_append_iff (.word hptr)

/-- Qualifiers make no difference to the type that remains. -/
theorem Stacked.strips_iff (h : Stacked q) : Strips (q ++ s) r ↔ Strips s r := by
  obtain ⟨marks, hmarks, rfl⟩ := h
  induction marks with
  | nil => rfl
  | cons m marks ih =>
    obtain ⟨hm, hmarks⟩ := List.forall_mem_cons.mp hmarks
    rw [List.flatten_cons, List.append_assoc, strips_mark hm, ih hmarks]

theorem surplus_plain (h : ∀ c ∈ q, c ∉ ['<', '>', '-', 'a']) :
    surplus (q ++ s) = surplus s := by
  induction q with
  | nil => rfl
  | cons c q ih =>
    obtain ⟨hc, hq⟩ := List.forall_mem_cons.mp h
    simp only [List.mem_cons, List.not_mem_nil, or_false, not_or] at hc
    obtain ⟨hopen, hclose, hdash, -⟩ := hc
    have hstep : 0 + surplus (c :: (q ++ s)) = depthAfter 0 c + surplus (q ++ s) :=
      surplus_cons fun h => hdash h.1
    rw [depthAfter, if_neg hopen, if_neg hclose, Int.zero_add, Int.zero_add, ih hq] at hstep
    exact hstep

theorem Nests.stacked (hs : Nests s) (hq : Stacked q) : Nests (q ++ s) where
  closed := (surplus_plain hq.plain).trans hs.closed
  opened := fun p hp => by
    rcases List.prefix_or_prefix_of_prefix hp (List.prefix_append q s) with hp | ⟨p, rfl⟩
    · have hzero := surplus_plain (s := []) fun c hc => hq.plain c (hp.subset hc)
      rw [List.append_nil] at hzero
      exact Int.le_of_eq hzero.symm
    · rw [surplus_plain hq.plain]
      exact hs.opened p ((List.prefix_append_right_inj q).mp hp)

theorem eq_or_prefix_of_as (h : s ++ asMark = "as ".toList ++ back) :
    s = "as".toList ∨ "as ".toList <+: s := by
  rcases s with _ | ⟨a, _ | ⟨b, _ | ⟨c, s⟩⟩⟩ <;> simp [asMark] at h ⊢
  · exact ⟨h.1, h.2.1⟩
  · exact ⟨h.1.symm, h.2.1.symm, h.2.2.1.symm⟩

/-- Qualifiers hold no mark that divides a type from a trait. Only with the type behind them they
can make one, when they end with a blank and the type starts with `as`. -/
theorem SelfType.alone_stacked (hs : SelfType s) (hq : Stacked q)
    (hblank : s = "as".toList → q.getLast? ≠ some ' ') : Alone (q ++ s) := by
  intro front back h hfront
  rw [List.append_assoc] at h
  have hprefix : front <+: q ++ (s ++ asMark) := h ▸ List.prefix_append front _
  have hq' : q <+: q ++ (s ++ asMark) := List.prefix_append q _
  rcases List.prefix_or_prefix_of_prefix hprefix hq' with ⟨u, rfl⟩ | ⟨front, rfl⟩
  · cases u with
    | nil =>
      rw [List.append_nil] at *
      exact hs.alone [] back (List.append_cancel_left h) rfl
    | cons c u =>
      rw [List.append_assoc, List.append_cancel_left_eq] at h
      obtain ⟨rfl, htail⟩ : c = ' ' ∧ u ++ (s ++ asMark) = "as ".toList ++ back := by
        simpa [asMark] using h
      cases u with
      | nil =>
        have hlast : (front ++ [' ']).getLast? = some ' ' := by simp
        rcases eq_or_prefix_of_as htail with rfl | hs'
        · exact absurd hlast (hblank rfl)
        · exact absurd hs' hs.noAs
      | cons d u =>
        obtain rfl : d = 'a' := (List.cons.inj htail).1
        exact absurd (List.mem_append_right front (by simp)) fun hm => hq.plain 'a' hm (by simp)
  · rw [List.append_assoc, List.append_cancel_left_eq] at h
    rw [surplus_plain hq.plain] at hfront
    exact hs.alone front back h hfront

end Retrace.Symbol

/-! ### Denied symbols -/

namespace Retrace.Denylist

open Retrace.Symbol Text

variable {d : Denylist} {s t r rest : List Char}

/-- The denylists there are: the empty one, the one of a native program, and those with further
prefixes. -/
inductive Made : Denylist → Prop
  | empty : Made .empty
  | default : Made .default
  | denyPrefix {d : Denylist} (p : String) : Made d → Made (d.denyPrefix p)

theorem Made.not_mem_exact (h : d.Made) : ∀ e ∈ d.exact, ' ' ∉ e.toList := by
  induction h with
  | empty => nofun
  | default => decide
  | denyPrefix p _ ih => exact ih

theorem deniesPath_iff : d.deniesPath s = true ↔ ∃ p ∈ d.prefixes, p.toList <+: s := by
  have hiff (p : List Char) : (stripPrefix? p s).isSome = true ↔ p <+: s := by
    rw [← not_iff_not, ← stripPrefix?_eq_none_iff, Bool.not_eq_true, Option.isSome_eq_false_iff,
      Option.isNone_iff_eq_none]
  simp only [deniesPath, List.any_eq_true, hiff]

/-- A symbol that a type and a trait qualify is left out for one of them and for nothing else. -/
theorem denies_ofTrait_iff (hd : d.Made)
    (h : qualified? (ofTrait s t rest) = some (r, some (trim t))) :
    d.denies (String.ofList (ofTrait s t rest)) = true ↔
      ∃ p ∈ d.prefixes, p.toList <+: r ∨ p.toList <+: trim t := by
  have hexact : d.exact.contains (String.ofList (ofTrait s t rest)) = false := by
    rw [Bool.eq_false_iff, Ne, List.contains_iff_mem]
    intro hm
    refine hd.not_mem_exact _ hm ?_
    rw [String.toList_ofList]
    simp [ofTrait, asMark]
  simp only [denies, hexact, Bool.false_or, String.toList_ofList, h, Option.any_some,
    Bool.or_eq_true, deniesPath_iff, ← exists_or, ← and_or_left]

end Retrace.Denylist

namespace Retrace.Symbol

open Text

variable {q s t : List Char} {d : Denylist}

/-- A symbol that starts with angle brackets is split into what remains of the type in them without
the qualifiers, and the trait if there is one. Every other symbol has no such parts. The loop that
takes the qualifiers off ends on every text. A denylist leaves the symbol out just for a prefix of
what remains of the type, or of the trait; so qualifiers before the type make no difference, unless
they end with a blank and the type is called `as`. -/
theorem qualified_split (hs : SelfType s) (ht : Nests t) (hlast : t.getLast? ≠ some '-')
    (hq : Stacked q) (hblank : s = "as".toList → q.getLast? ≠ some ' ') (hd : d.Made) :
    (∃ r, (∀ u, Strips s u ↔ u = r) ∧ ∀ rest,
      qualified? (ofTrait s t rest) = some (r, some (trim t)) ∧
      qualified? (ofType s rest) = some (r, none) ∧
      d.denies (String.ofList (ofTrait (q ++ s) t rest)) =
        d.denies (String.ofList (ofTrait s t rest)) ∧
      (d.denies (String.ofList (ofTrait s t rest)) = true ↔
        ∃ p ∈ d.prefixes, p.toList <+: r ∨ p.toList <+: trim t)) ∧
    (∀ u, qualified? u = none ↔ u.head? ≠ some '<' ∨ ¬ Closes 0 u.tail) ∧
    ∀ u, ∃ k, k ≤ u.length ∧ EndsAfter u k ∧ dropQualifiers u = trim (dropQualifier^[k] u) := by
  have hsame : dropQualifiers (q ++ s) = dropQualifiers s :=
    dropQualifiers_eq_iff.mpr (hq.strips_iff.mpr (strips_dropQualifiers s))
  refine ⟨⟨dropQualifiers s, fun u => ?_, fun rest => ?_⟩, fun u => qualified?_eq_none_iff,
    exists_endsAfter⟩
  · rw [← dropQualifiers_eq_iff, eq_comm]
  · have hsplit : qualified? (ofTrait s t rest) = _ :=
      qualified?_ofTrait hs.nests hs.alone ht hlast
    have hstacked : qualified? (ofTrait (q ++ s) t rest) = _ :=
      qualified?_ofTrait (hs.nests.stacked hq) (hs.alone_stacked hq hblank) ht hlast
    rw [hsame] at hstacked
    refine ⟨hsplit, qualified?_ofType hs, ?_, Denylist.denies_ofTrait_iff hd hsplit⟩
    rw [Bool.eq_iff_iff, Denylist.denies_ofTrait_iff hd hstacked,
      Denylist.denies_ofTrait_iff hd hsplit]

/-- A type with a function type in its brackets, and with two qualifiers, is left out for its
trait. -/
theorem qualified_split_sample :
    SelfType "a::Walk<fn() -> u8>".toList ∧ Nests "core::fmt::Debug".toList ∧
      Stacked "&mut dyn ".toList ∧ Denylist.default.Made ∧
      qualified? (ofTrait "a::Walk<fn() -> u8>".toList "core::fmt::Debug".toList "::fmt".toList) =
        some ("a::Walk<fn() -> u8>".toList, some "core::fmt::Debug".toList) ∧
      Denylist.default.denies (String.ofList (ofTrait ("&mut dyn ".toList ++
        "a::Walk<fn() -> u8>".toList) "core::fmt::Debug".toList "::fmt".toList)) = true := by
  have hs : SelfType "a::Walk<fn() -> u8>".toList := by decide +kernel
  have ht : Nests "core::fmt::Debug".toList := by decide +kernel
  have hq : Stacked "&mut dyn ".toList :=
    ⟨["&mut ".toList, "dyn ".toList], by decide +kernel, by decide +kernel⟩
  obtain ⟨⟨r, hstrips, hsplit⟩, -, -⟩ :=
    qualified_split hs ht (by decide +kernel) hq (by decide +kernel) .default
  obtain ⟨hqualified, -, hsame, hdenied⟩ := hsplit "::fmt".toList
  have hr : "a::Walk<fn() -> u8>".toList = r :=
    (hstrips _).mp (dropQualifiers_eq_iff.mp (by decide +kernel))
  have htrim : trim "core::fmt::Debug".toList = "core::fmt::Debug".toList := by decide +kernel
  rw [htrim] at hqualified hdenied
  refine ⟨hs, ht, hq, .default, by rw [hqualified, hr], ?_⟩
  rw [hsame, hdenied]
  exact ⟨"core::", by decide +kernel, .inr (by decide +kernel)⟩

/-- A type that is called `as` is taken for what divides a type from a trait when a qualifier with a
blank stands before it, so that the trait is missed. -/
theorem as_type_hides_trait :
    SelfType "as".toList ∧ Nests "T".toList ∧ "T".toList.getLast? ≠ some '-' ∧
      Stacked "dyn ".toList ∧ (Denylist.empty.denyPrefix "T").Made ∧
      (Denylist.empty.denyPrefix "T").denies (String.ofList
        (ofTrait "as".toList "T".toList "::m".toList)) = true ∧
      (Denylist.empty.denyPrefix "T").denies (String.ofList
        (ofTrait ("dyn ".toList ++ "as".toList) "T".toList "::m".toList)) = false := by
  refine ⟨by decide +kernel, by decide +kernel, by decide +kernel, ?_, .denyPrefix "T" .empty,
    by decide +kernel, by decide +kernel⟩
  exact ⟨["dyn ".toList], by decide +kernel, by decide +kernel⟩

end Retrace.Symbol
