import Mathlib.Data.List.Infix
import Mathlib.Data.List.TakeWhile
import Retrace.Proofs.Text.Lines
import Retrace.Text.Search

/-! Texts put together from parts come apart again: at the ends of their lines, at blanks around
them, and at the first or the last mark. -/
namespace Retrace.Text

variable {c : Char} {p s t a b seen front back rest indent : List Char} {ls : List (List Char)}

/-! ### Marks -/

theorem stripPrefix?_eq_none_iff : stripPrefix? p s = none ↔ ¬ p <+: s := by
  have hiff : (∃ t, stripPrefix? p s = some t) ↔ p <+: s :=
    exists_congr fun t => stripPrefix?_eq_some_iff.trans eq_comm
  rw [← hiff, not_exists]
  exact Option.eq_none_iff_forall_ne_some

/-- A text that lacks a mark is not split at it. -/
theorem splitOnce_eq_none (h : ¬ p <:+: s) : splitOnce p s = none := by
  cases hs : splitOnce p s with
  | none => rfl
  | some ab => exact absurd ⟨ab.1, ab.2, (eq_append_of_splitOnce hs).symm⟩ h

/-- The first mark is the one before which its first character does not occur. -/
theorem splitOnce_append (h : c ∉ front) :
    splitOnce (c :: p) (front ++ (c :: p ++ rest)) = some (front, rest) := by
  induction front with
  | nil =>
    have hstrip : stripPrefix? (c :: p) (c :: p ++ rest) = some rest := stripPrefix?_append
    rw [List.nil_append, List.cons_append] at *
    rw [splitOnce, hstrip]
  | cons d front ih =>
    obtain ⟨hd, hfront⟩ : c ≠ d ∧ c ∉ front := by simpa using h
    rw [List.cons_append, splitOnce, stripPrefix?, if_neg hd, ih hfront]
    rfl

/-- A text that starts with a mark is split right there. -/
theorem splitOnce_self_append : splitOnce (c :: p) (c :: p ++ rest) = some ([], rest) :=
  splitOnce_append List.not_mem_nil

/-- A text with a mark in it is split at that mark or before it. -/
theorem exists_splitOnce_append (c : Char) (p front rest : List Char) :
    ∃ a b, splitOnce (c :: p) (front ++ (c :: p ++ rest)) = some (a, b) ∧ a <+: front := by
  induction front with
  | nil => exact ⟨[], rest, splitOnce_self_append, List.nil_prefix⟩
  | cons d front ih =>
    obtain ⟨a, b, hab, ha⟩ := ih
    rw [List.cons_append, splitOnce]
    cases stripPrefix? (c :: p) (d :: (front ++ (c :: p ++ rest))) with
    | some rest => exact ⟨[], rest, rfl, List.nil_prefix⟩
    | none =>
      refine ⟨d :: a, b, ?_, List.cons_prefix_cons.mpr ⟨rfl, ha⟩⟩
      rw [hab]
      rfl

/-- A text that is not split at a mark lacks it. -/
theorem not_infix_of_splitOnce (h : splitOnce (c :: p) s = none) : ¬ c :: p <:+: s := by
  rintro ⟨front, rest, rfl⟩
  obtain ⟨a, b, hab, -⟩ := exists_splitOnce_append c p front rest
  rw [List.append_assoc, hab] at h
  cases h

/-- A mark that does not go on past the end of a text is found in the text alone. -/
theorem splitOnce_append_right (h : splitOnce p s = some (a, b)) :
    splitOnce p (s ++ t) = some (a, b ++ t) := by
  have hs := eq_append_of_splitOnce h
  induction s generalizing a with
  | nil =>
    obtain ⟨rfl, rfl, rfl⟩ : a = [] ∧ p = [] ∧ b = [] := by simpa [eq_comm] using hs
    cases t <;> rfl
  | cons d s ih =>
    rw [List.cons_append]
    rw [splitOnce] at h ⊢
    cases hstrip : stripPrefix? p (d :: s) with
    | some rest =>
      rw [hstrip] at h
      obtain ⟨rfl, rfl⟩ : a = [] ∧ b = rest := by simpa [eq_comm] using h
      have hp : d :: (s ++ t) = p ++ (b ++ t) := by
        rw [← List.cons_append, eq_append_of_stripPrefix? hstrip, List.append_assoc]
      rw [stripPrefix?_eq_some_iff.mpr hp]
    | none =>
      rw [hstrip] at h
      obtain ⟨⟨a, b⟩, hab, he⟩ := Option.map_eq_some_iff.mp h
      obtain ⟨rfl, rfl⟩ := Prod.mk.inj he
      have hnone : stripPrefix? p (d :: (s ++ t)) = none := by
        refine stripPrefix?_eq_none_iff.mpr fun hp => ?_
        refine stripPrefix?_eq_none_iff.mp hstrip ?_
        refine List.prefix_of_prefix_length_le hp ⟨t, rfl⟩ ?_
        rw [hs]
        simp only [List.length_append]
        omega
      rw [hnone, ih hab (eq_append_of_splitOnce hab)]
      rfl

/-- A mark whose first character stands nowhere else in it is the first one in a text just if the
mark is not in front of it. -/
theorem splitOnce_append_of_not_infix (hc : c ∉ p) (h : ¬ c :: p <:+: front) :
    splitOnce (c :: p) (front ++ (c :: p ++ rest)) = some (front, rest) := by
  induction front with
  | nil => exact splitOnce_self_append
  | cons d front ih =>
    have hnone : stripPrefix? (c :: p) (d :: (front ++ (c :: p ++ rest))) = none := by
      refine stripPrefix?_eq_none_iff.mpr fun hp => ?_
      obtain ⟨rfl, htail⟩ := List.cons_prefix_cons.mp hp
      rcases List.prefix_or_prefix_of_prefix htail ⟨_, rfl⟩ with hpf | ⟨r, rfl⟩
      · exact h (List.cons_prefix_cons.mpr ⟨rfl, hpf⟩).isInfix
      · cases r with
        | nil => exact h (by simp)
        | cons e r =>
          obtain ⟨rfl, -⟩ := List.cons_prefix_cons.mp ((List.prefix_append_right_inj _).mp htail)
          exact hc (by simp)
    rw [List.cons_append, splitOnce, hnone,
      ih fun hi => h (hi.trans (List.suffix_cons _ _).isInfix)]
    rfl

/-- The last mark is the one after which its last character does not occur. -/
theorem splitLast_append (h : c ∉ back) :
    splitLast (p ++ [c]) (front ++ (p ++ [c]) ++ back) = some (front, back) := by
  have hback : c ∉ back.reverse := fun hm => h (List.mem_reverse.mp hm)
  have hsplit : splitOnce (c :: p.reverse) (back.reverse ++ (c :: p.reverse ++ front.reverse)) =
      some (back.reverse, front.reverse) := splitOnce_append hback
  rw [splitLast]
  simp only [List.reverse_append, List.reverse_cons, List.reverse_nil, List.nil_append,
    List.singleton_append] at *
  rw [hsplit]
  simp

/-- A mark whose last character stands nowhere else in it is the last one in a text just if the
mark is not behind it. -/
theorem splitLast_append_of_not_infix (hc : c ∉ p) (h : ¬ p ++ [c] <:+: back) :
    splitLast (p ++ [c]) (front ++ (p ++ [c] ++ back)) = some (front, back) := by
  have hback : ¬ c :: p.reverse <:+: back.reverse := by
    rwa [← List.reverse_concat, List.reverse_infix]
  have hsplit : splitOnce (c :: p.reverse) (back.reverse ++ (c :: p.reverse ++ front.reverse)) =
      some (back.reverse, front.reverse) :=
    splitOnce_append_of_not_infix (fun hm => hc (List.mem_reverse.mp hm)) hback
  have hreverse : (front ++ (p ++ [c] ++ back)).reverse =
      back.reverse ++ (c :: p.reverse ++ front.reverse) := by simp
  rw [splitLast, List.reverse_concat, hreverse, hsplit]
  simp

/-- A text that is split at the last mark has the mark between the two parts. -/
theorem eq_append_of_splitLast (h : splitLast p s = some (front, back)) :
    s = front ++ p ++ back := by
  obtain ⟨⟨a, b⟩, hab, he⟩ := Option.map_eq_some_iff.mp h
  obtain ⟨rfl, rfl⟩ : b.reverse = front ∧ a.reverse = back := by simpa using he
  have hs := congrArg List.reverse (eq_append_of_splitOnce hab)
  simpa using hs

/-! ### Blanks -/

/-- A text without blanks on either side. -/
structure Trimmed (s : List Char) : Prop where
  first : s.head?.any isBlank = false
  last : s.getLast?.any isBlank = false

instance (s : List Char) : Decidable (Trimmed s) :=
  decidable_of_iff (s.head?.any isBlank = false ∧ s.getLast?.any isBlank = false)
    ⟨fun h => ⟨h.1, h.2⟩, fun h => ⟨h.first, h.last⟩⟩

theorem any_head?_of_forall (h : ∀ c ∈ s, isBlank c = false) : s.head?.any isBlank = false :=
  (Option.any_eq_false _ _).mpr fun c hc => h c (List.mem_of_mem_head? hc)

theorem trimmed_of_forall (h : ∀ c ∈ s, isBlank c = false) : Trimmed s where
  first := any_head?_of_forall h
  last := (Option.any_eq_false _ _).mpr fun c hc => h c (List.mem_of_mem_getLast? hc)

/-- What stands in front of a trimmed text, and starts with no blank, makes a trimmed text with
it. -/
theorem Trimmed.append (ht : Trimmed t) (hne : t ≠ []) (hs : s ≠ [])
    (h : s.head?.any isBlank = false) : Trimmed (s ++ t) where
  first := by
    obtain ⟨c, r, rfl⟩ := List.exists_cons_of_ne_nil hs
    exact h
  last := by
    have hlast := List.getLast?_eq_some_getLast hne
    rw [List.getLast?_append, hlast, Option.some_or, ← hlast]
    exact ht.last

theorem trimEnd_of_last (h : s.getLast?.any isBlank = false) : trimEnd s = s := by
  rw [trimEnd, dropEndWhile]
  rw [← List.head?_reverse] at h
  cases hs : s.reverse with
  | nil => rw [List.reverse_eq_nil_iff.mp hs]; rfl
  | cons c r =>
    rw [hs] at h
    have hc : isBlank c = false := h
    rw [List.dropWhile_cons, hc, ← hs, if_neg Bool.false_ne_true, List.reverse_reverse]

theorem trimStart_append (hi : ∀ c ∈ indent, isBlank c = true)
    (h : s.head?.any isBlank = false) : trimStart (indent ++ s) = s := by
  rw [trimStart, List.dropWhile_append_of_pos hi]
  cases s with
  | nil => rfl
  | cons c s =>
    have hc : isBlank c = false := h
    rw [List.dropWhile_cons, hc]
    rfl

/-- Indentation is trimmed off. -/
theorem trim_append (hi : ∀ c ∈ indent, isBlank c = true) (h : Trimmed s) :
    trim (indent ++ s) = s := by
  rw [trim, trimStart_append hi h.first, trimEnd_of_last h.last]

theorem Trimmed.trim (h : Trimmed s) : trim s = s := by
  have happend : Text.trim ([] ++ s) = s := trim_append nofun h
  rwa [List.nil_append] at happend

/-- A blank at the end is trimmed off. -/
theorem trim_concat (hc : isBlank c = true) : trim (s ++ [c]) = trim s := by
  have hend (t : List Char) : trimEnd (t ++ [c]) = trimEnd t := by
    simp [trimEnd, dropEndWhile, hc]
  rw [trim, trim, trimStart, trimStart, List.dropWhile_append]
  split
  · rename_i hempty
    rw [List.isEmpty_iff.mp hempty, List.dropWhile_cons, hc]
    rfl
  · exact hend _

theorem trim_ne_nil (h : blank s = false) : trim s ≠ [] := by
  intro htrim
  have hend : ∀ c ∈ trimStart s, isBlank c = true := by
    have hdrop := List.dropWhile_eq_nil_iff.mp (List.reverse_eq_nil_iff.mp htrim)
    exact fun c hc => hdrop c (List.mem_reverse.mpr hc)
  have hall : blank s = true := by
    rw [blank, List.all_eq_true, ← List.takeWhile_append_dropWhile (p := isBlank) (l := s)]
    intro c hc
    rcases List.mem_append.mp hc with hfront | hback
    · exact List.mem_takeWhile_imp hfront
    · exact hend c hback
  rw [hall] at h
  cases h

/-! ### Lines -/

theorem trim_dropReturn (s : List Char) : trim (dropReturn s) = trim s := by
  unfold dropReturn
  split
  · rename_i h
    obtain ⟨t, rfl⟩ := List.getLast?_eq_some_iff.mp h
    rw [List.dropLast_concat, trim_concat (by decide)]
  · rfl

/-- A text without line feeds is one line, unless it is empty. -/
theorem linesFrom_last (h : '\n' ∉ s) :
    linesFrom seen s = if (seen.reverse ++ s).isEmpty then [] else [seen.reverse ++ s] := by
  induction s generalizing seen with
  | nil => simp [linesFrom]
  | cons c s ih =>
    obtain ⟨hc, hs⟩ : c ≠ '\n' ∧ '\n' ∉ s := by simpa [eq_comm] using h
    rw [linesFrom, if_neg hc, ih hs]
    simp

theorem lines_flatMap (h : ∀ l ∈ ls, '\n' ∉ l) :
    lines (ls.flatMap (· ++ ['\n']) ++ t) = ls.map dropReturn ++ lines t := by
  induction ls with
  | nil => rfl
  | cons l ls ih =>
    obtain ⟨hl, hls⟩ := List.forall_mem_cons.mp h
    rw [List.flatMap_cons, List.append_assoc, List.append_assoc, List.singleton_append, lines,
      linesFrom_line hl, ih hls]
    rfl

/-- Every text is made of ended lines and a last one that no line feed ends. -/
theorem exists_flatMap_append (s : List Char) : ∃ (ls : List (List Char)) (l : List Char),
    s = ls.flatMap (· ++ ['\n']) ++ l ∧ (∀ l' ∈ ls, '\n' ∉ l') ∧ '\n' ∉ l := by
  induction s with
  | nil => exact ⟨[], [], rfl, by simp, by simp⟩
  | cons c s ih =>
    obtain ⟨ls, l, rfl, hls, hl⟩ := ih
    by_cases hc : c = '\n'
    · exact ⟨[] :: ls, l, by simp [hc], by simpa using hls, hl⟩
    · cases ls with
      | nil => exact ⟨[], c :: l, by simp, by simp, by simp [hl, Ne.symm hc]⟩
      | cons l' ls =>
        refine ⟨(c :: l') :: ls, l, by simp, ?_, hl⟩
        simpa [Ne.symm hc] using hls

theorem dropReturn_of_not_mem (h : '\r' ∉ s) : dropReturn s = s :=
  if_neg fun hlast => h (List.mem_of_getLast? hlast)

theorem dropReturn_prefix_self (s : List Char) : dropReturn s <+: s := by
  unfold dropReturn
  split
  · exact List.dropLast_prefix s
  · exact List.prefix_rfl

/-- The ending of a line is in what comes last on it. -/
theorem dropReturn_append (h : s.getLast? ≠ some '\r') :
    dropReturn (s ++ t) = s ++ dropReturn t := by
  rcases t.eq_nil_or_concat with rfl | ⟨t, c, rfl⟩
  · rw [List.append_nil, dropReturn, if_neg h]
    exact (List.append_nil s).symm
  · rw [List.concat_eq_append, ← List.append_assoc, dropReturn, dropReturn, List.getLast?_concat,
      List.getLast?_concat]
    split
    · rw [List.dropLast_concat, List.dropLast_concat]
    · exact List.append_assoc s t [c]

/-- A prefix without a carriage return stays when the line's ending goes. -/
theorem prefix_dropReturn (hp : '\r' ∉ p) (h : p <+: s) : p <+: dropReturn s := by
  unfold dropReturn
  split
  · rename_i hlast
    obtain ⟨t, rfl⟩ := List.getLast?_eq_some_iff.mp hlast
    rw [List.dropLast_concat]
    rcases List.prefix_concat_iff.mp h with rfl | hpt
    · exact absurd (by simp) hp
    · exact hpt
  · exact h

/-- What a text starts with, its first line starts with. -/
theorem exists_lines_eq_cons (hne : p ≠ []) (hn : '\n' ∉ p) (hr : '\r' ∉ p) (h : p <+: s) :
    ∃ l ls, lines s = l :: ls ∧ p <+: l := by
  obtain ⟨t, rfl⟩ := h
  obtain ⟨ls, l, rfl, hls, hl⟩ := exists_flatMap_append t
  cases ls with
  | nil =>
    refine ⟨p ++ l, [], ?_, List.prefix_append p l⟩
    rw [List.flatMap_nil, List.nil_append, lines, linesFrom_last (by simp [hn, hl])]
    simp [hne]
  | cons l' ls =>
    obtain ⟨hl', -⟩ := List.forall_mem_cons.mp hls
    refine ⟨dropReturn (p ++ l'), lines (ls.flatMap (· ++ ['\n']) ++ l), ?_,
      prefix_dropReturn hr (List.prefix_append p l')⟩
    have hline : '\n' ∉ p ++ l' := by simp [hn, hl']
    rw [List.flatMap_cons, List.append_assoc, List.append_assoc, List.singleton_append,
      ← List.append_assoc, lines, linesFrom_line hline]
    rfl

theorem join_concat (ls : List (List Char)) (s : List Char) :
    join ['\n'] (ls ++ [s]) = ls.flatMap (· ++ ['\n']) ++ s := by
  induction ls with
  | nil => rfl
  | cons l ls ih =>
    rw [List.cons_append, join, ih, List.flatMap_cons, List.append_assoc, List.append_assoc,
      List.append_assoc]
    simp

/-- A text without carriage returns is joined from pieces that are its lines, save for an empty last
one. -/
theorem exists_pieces (h : '\r' ∉ s) : ∃ ls, join ['\n'] ls = s ∧
    (∀ t, lines (s ++ '\n' :: t) = ls ++ lines t) ∧ (ls = lines s ∨ ls = lines s ++ [[]]) := by
  obtain ⟨ls, l, rfl, hls, hl⟩ := exists_flatMap_append s
  have hreturns : ls.map dropReturn = ls := by
    refine (List.map_congr_left fun l' hl' => dropReturn_of_not_mem fun hr => h ?_).trans
      (List.map_id' ls)
    exact List.mem_append_left _ (List.mem_flatMap.mpr ⟨l', hl', List.mem_append_left _ hr⟩)
  have hlast : '\r' ∉ l := fun hr => h (List.mem_append_right _ hr)
  refine ⟨ls ++ [l], join_concat ls l, fun t => ?_, ?_⟩
  · rw [List.append_assoc, lines_flatMap hls, hreturns,
      lines_line hl fun hr => hlast (List.mem_of_getLast? hr), List.append_cons]
  · rw [lines_flatMap hls, hreturns, lines, linesFrom_last hl]
    cases l with
    | nil => exact .inr (by simp)
    | cons c l => exact .inl rfl

/-- The lines of a text say what the text does, but for the blanks around it. -/
theorem trim_join_lines (h : '\r' ∉ s) : trim (join ['\n'] (lines s)) = trim s := by
  obtain ⟨ls, hs, -, hlines | hlines⟩ := exists_pieces h
  · rw [← hlines, hs]
  · conv_rhs => rw [← hs, hlines, join_concat, List.append_nil]
    cases (lines s).eq_nil_or_concat with
    | inl hnil => rw [hnil]; rfl
    | inr hconcat =>
      obtain ⟨front, l, hl⟩ := hconcat
      rw [hl, List.concat_eq_append, join_concat, List.flatMap_append, List.flatMap_singleton,
        ← List.append_assoc, trim_concat (by decide)]

/-- What goes through the lines of a text, and heeds neither empty lines nor the carriage returns at
the ends, goes through the lines that the text was joined from. -/
theorem foldl_lines_join {β : Type} {f : β → List Char → β} (hempty : ∀ b, f b [] = b)
    (hreturn : ∀ b l, f b (dropReturn l) = f b l) (h : ∀ l ∈ ls, '\n' ∉ l) (b : β) :
    (lines (join ['\n'] ls)).foldl f b = ls.foldl f b := by
  induction ls generalizing b with
  | nil => rfl
  | cons l ls ih =>
    obtain ⟨hl, hls⟩ := List.forall_mem_cons.mp h
    cases ls with
    | nil =>
      rw [join, lines, linesFrom_last hl]
      cases l with
      | nil => exact (hempty b).symm
      | cons c l => rfl
    | cons l' ls =>
      have hlines : lines (join ['\n'] (l :: l' :: ls)) =
          dropReturn l :: lines (join ['\n'] (l' :: ls)) := by
        rw [join, List.append_assoc, List.singleton_append]
        · exact linesFrom_line hl
        · exact List.cons_ne_nil _ _
      rw [hlines, List.foldl_cons, List.foldl_cons, hreturn, ih hls]

end Retrace.Text
