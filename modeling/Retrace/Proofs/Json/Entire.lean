import Retrace.Proofs.Json.AnyOrder
import Retrace.Proofs.Json.Refusals

/-! A value that is read is read to its end: a reader takes what stands for a document as a whole or
not at all. -/
namespace Retrace.Json

open Retrace.Text Retrace.Number Reader

variable {α β : Type} {u v g : List Char} {parts : List (List Char)} {s t r : Input} {c : Char}
  {d : Json} {ds : List Json} {fs : List (String × Json)} {a b : α} {name : String}
  {room n : Nat} {isFirst : Bool}

/-- The reader takes a document to its end, if it takes it at all. -/
def Entire (p : Reader α) : Prop :=
  ∀ (d : Json) (g u : List Char) (r : Input) (a : α) (t : Input), Gap g → d.SpelledBy u →
    AtEnd r → p (g.map some ++ (u.map some ++ r)) = .ok (a, t) → t = r

theorem Lenient.entire {p : Reader α} (hp : Lenient p)
    (h : ∀ (d : Json) (u : List Char) (r : Input) (a : α) (t : Input), d.SpelledBy u → AtEnd r →
      p (u.map some ++ r) = .ok (a, t) → t = r) : Entire p := by
  intro d g u r a t hg hu hr hok
  rw [hp g _ hg] at hok
  exact h d u r a t hu hr hok

/-- What a reader takes for a value it takes to the end. -/
theorem Takes.rest {p : Reader α} (h : Takes p d a) (hu : d.SpelledBy u) (hr : AtEnd r)
    (hok : p (u.map some ++ r) = .ok (b, t)) : b = a ∧ t = r := by
  have := h [] u r gap_nil hu hr
  rw [List.map_nil, List.nil_append, hok] at this
  exact Prod.mk.inj (Except.ok.inj this)

/-! ### Answers of readers -/

namespace Reader

theorem ok_of_bind {p : Reader α} {f : α → Reader β} {x : β} (h : (p >>= f) s = .ok (x, t)) :
    ∃ a s', p s = .ok (a, s') ∧ f a s' = .ok (x, t) := by
  cases hp : p s with
  | error e =>
    rw [bind_error hp] at h
    cases h
  | ok y =>
    rw [bind_eq hp] at h
    exact ⟨y.1, y.2, rfl, h⟩

theorem ok_of_within {p : Reader α} {segment : Segment} (h : within segment p s = .ok (a, t)) :
    p s = .ok (a, t) := by
  cases hp : p s with
  | error e => simp [within, hp, Except.mapError] at h
  | ok y => simpa [within, hp, Except.mapError] using h

theorem ok_of_settled {p : Reader α} (h : settled p s = .ok (a, t)) : p s = .ok (a, t) := by
  cases hp : p s with
  | error e => simp [settled, hp, Except.mapError] at h
  | ok y => simpa [settled, hp, Except.mapError] using h

theorem ok_of_closedBy {p : Reader α} {finish : Reader Unit}
    (h : closedBy finish p s = .ok (a, t)) :
    ∃ s', p s = .ok (a, s') ∧ finish s' = .ok ((), t) := by
  cases hp : p s with
  | error e =>
    obtain ⟨e', he⟩ := closedBy_error hp finish
    rw [he] at h
    cases h
  | ok y =>
    cases hf : finish y.2 with
    | error e => simp [closedBy, hp, hf, Except.map] at h
    | ok z =>
      simp only [closedBy, hp, hf, Except.map, Except.ok.injEq, Prod.mk.injEq] at h
      obtain ⟨rfl, rfl⟩ := h
      exact ⟨y.2, rfl, hf⟩

theorem bind_fail_ne_ok {p : Reader α} {f : α → Cause} {x : β × Input} :
    (p >>= fun a => fail (f a) n) s ≠ .ok x := by
  intro h
  obtain ⟨a, s', -, h⟩ := ok_of_bind h
  cases h

/-- A value of the wrong type is never taken. -/
theorem wrong_ne_ok {wanted : String} {x : α × Input} : wrong wanted s ≠ .ok x := by
  intro h
  obtain ⟨p, s', -, h⟩ := ok_of_bind h
  cases p with
  | none => cases h
  | some p =>
    dsimp only at h
    split at h
    · exact bind_fail_ne_ok h
    split at h
    · exact bind_fail_ne_ok h
    split at h
    · exact bind_fail_ne_ok h
    split at h
    · obtain ⟨-, s', -, h⟩ := ok_of_bind h
      exact bind_fail_ne_ok h
    split at h
    · exact bind_fail_ne_ok h
    split at h
    · cases h
    split at h <;> cases h

end Reader

/-! ### Numbers -/

namespace Numeral

variable {limit n : Nat} {e : Int} {negative : Bool} {x : Numeral}

theorem passDigits_cons {p : Piece} (h : (digit? p).isSome = true) :
    passDigits (p :: r) = ((passDigits r).1 + 1, (passDigits r).2) := by
  simp [passDigits, h]

/-- Digits that were left when no more were gathered are passed over like the others. -/
theorem passDigits_gather (limit n : Nat) (s : Input) :
    (passDigits (gather limit n s).2.2).2 = (passDigits s).2 := by
  induction s generalizing n with
  | nil => rfl
  | cons p s ih =>
    cases hp : digit? p with
    | none => simp [gather, hp]
    | some d =>
      have hsome : (digit? p).isSome = true := by rw [hp]; rfl
      by_cases hlimit : limit < n * 10 + d
      · simp [gather, hp, hlimit]
      · simpa [gather, hp, hlimit, passDigits_cons hsome] using ih (n * 10 + d)

theorem gather_rest (h : seesDigit (gather limit n s).2.2 = false) :
    (gather limit n s).2.2 = (passDigits s).2 := by
  rw [← passDigits_gather limit n s, passDigits_over h]

theorem passDigits_pos (h : seesDigit s = true) : (passDigits s).1 ≠ 0 := by
  cases s with
  | nil => cases h
  | cons p s =>
    rw [passDigits_cons (by simpa [seesDigit] using h)]
    exact Nat.succ_ne_zero _

theorem seesDigit_of_gather
    (h : seesDigit (gather limit n s).2.2 = true ∨ (gather limit n s).2.1 ≠ 0) :
    seesDigit s = true := by
  cases hs : seesDigit s with
  | true => rfl
  | false => simp [gather_over hs, hs] at h

theorem ofParts_rest (h : ofParts negative n e s = .ok (x, t)) : t = s := by
  cases happly : applyPower (Binary.ofNat .double n) 4 e with
  | none => simp [ofParts, happly, fail] at h
  | some y =>
    simp only [ofParts, happly] at h
    exact (Prod.mk.inj (Except.ok.inj h)).2.symm

theorem skipExponent_of_exponent (h : exponent negative n e s = .ok (x, t)) :
    skipExponent s = .ok ((), t) := by
  simp only [exponent] at h
  split at h
  · cases h
  split at h
  · cases h
  rename_i hdigit
  have hdigit : seesDigit (exponentSign s).2 = true := by simpa using hdigit
  rw [skipExponent, hdigit, if_pos rfl, ← passDigits_gather exponentLimit 0]
  split at h
  · split at h
    · cases h
    · rw [← (Prod.mk.inj (Except.ok.inj h)).2]
  · rename_i hrest
    rw [ofParts_rest h, passDigits_over (by simpa using hrest)]

theorem skip_of_afterFraction (h : afterFraction negative n e s = .ok (x, t)) :
    (if seesExponent s then skipExponent s.tail else .ok ((), s)) = .ok ((), t) := by
  rw [afterFraction] at h
  split at h
  · rename_i hexponent
    rw [if_pos hexponent, skipExponent_of_exponent h]
  · rename_i hexponent
    rw [if_neg hexponent, ofParts_rest h]

theorem skipFraction_of_fraction (h : fraction negative n e s = .ok (x, t)) :
    skipFraction s = .ok ((), t) := by
  simp only [fraction] at h
  have hskip (hs : seesDigit s = true)
      (h : (if seesExponent (passDigits s).2 then skipExponent (passDigits s).2.tail
        else .ok ((), (passDigits s).2)) = .ok ((), t)) : skipFraction s = .ok ((), t) := by
    rw [skipFraction]
    dsimp only
    rw [if_neg (passDigits_pos hs), h]
  split at h
  · rename_i hrest
    have hpos := seesDigit_of_gather (Or.inl hrest)
    rw [passDigits_gather] at h
    exact hskip hpos (skip_of_afterFraction h)
  · rename_i hrest
    rw [gather_rest (by simpa using hrest)] at h
    split at h
    · split at h <;> cases h
    · rename_i hcount
      exact hskip (seesDigit_of_gather (Or.inr hcount)) (skip_of_afterFraction h)

theorem skipTail_of_afterDigits {extra : Nat} (h : afterDigits negative n extra s = .ok (x, t)) :
    skipTail s = .ok ((), t) := by
  rw [afterDigits] at h
  rw [skipTail]
  split at h
  · rename_i hpoint
    rw [if_pos hpoint, skipFraction_of_fraction h]
  rename_i hpoint
  rw [if_neg hpoint]
  split at h
  · rename_i hexponent
    rw [if_pos hexponent, skipExponent_of_exponent h]
  rename_i hexponent
  rw [if_neg hexponent]
  split at h
  · rw [(Prod.mk.inj (Except.ok.inj h)).2]
  · rw [ofParts_rest h]

theorem skip_of_unsigned (h : unsigned negative s = .ok (x, t))
    (hs : r = s ∧ s.head? ≠ some (some '-') ∨ r = some '-' :: s) : skip r = .ok ((), t) := by
  have hstart : (if r.head? = some (some '-') then r.tail else r) = s := by
    rcases hs with ⟨rfl, hs⟩ | rfl
    · rw [if_neg hs]
    · rfl
  rw [skip, hstart]
  cases s with
  | nil => cases h
  | cons p s =>
    simp only [unsigned] at h
    dsimp only
    split at h
    · rename_i hzero
      rw [if_pos hzero]
      split at h
      · cases h
      · rename_i hdigit
        rw [if_neg hdigit, skipTail_of_afterDigits h]
    · rename_i hzero
      rw [if_neg hzero]
      split at h
      · rename_i hdigit
        rw [passDigits_gather] at h
        rw [if_pos hdigit, skipTail_of_afterDigits h]
      · cases h

/-- A number that is read ends where it would have been passed over. -/
theorem skip_of_read (h : read s = .ok (x, t)) : skip s = .ok ((), t) := by
  rw [read] at h
  split at h
  · rename_i hminus
    cases s with
    | nil => cases hminus
    | cons p s =>
      obtain rfl : p = some '-' := by simpa using hminus
      exact skip_of_unsigned h (Or.inr rfl)
  · rename_i hminus
    exact skip_of_unsigned h (Or.inl ⟨rfl, hminus⟩)

end Numeral

/-! ### Scalars -/

namespace Leads

/-- The first character of a document tells of which kind it is. -/
theorem kinds (h : d.Leads c) : c = 'n' ∧ d = .null ∨ (c = 't' ∨ c = 'f') ∧ (∃ b, d = .truth b) ∨
    (c = '-' ∨ c.isDigit = true) ∧ (∃ t, d = .number t) ∨ c = '"' ∧ (∃ s, d = .text s) ∨
    c = '[' ∧ (∃ ds, d = .list ds) ∨ c = Char.ofNat 123 ∧ ∃ fs, d = .record fs := by
  cases d with
  | null => exact .inl ⟨h, rfl⟩
  | truth b =>
    refine .inr (.inl ⟨?_, b, rfl⟩)
    cases b with
    | false => exact .inr h
    | true => exact .inl h
  | number t => exact .inr (.inr (.inl ⟨h, t, rfl⟩))
  | text s => exact .inr (.inr (.inr (.inl ⟨h, s, rfl⟩)))
  | list ds => exact .inr (.inr (.inr (.inr (.inl ⟨h, ds, rfl⟩))))
  | record fs => exact .inr (.inr (.inr (.inr (.inr ⟨h, fs, rfl⟩))))

theorem null (h : d.Leads 'n') : d = .null := by
  simpa using h.kinds

theorem truth (h : d.Leads c) (hc : c = 't' ∨ c = 'f') : ∃ b, d = .truth b := by
  rcases hc with rfl | rfl <;> simpa using h.kinds

theorem number (h : d.Leads c) (hc : c = '-' ∨ c.isDigit = true) : ∃ t, d = .number t := by
  have hne {e : Char} (hm : e ≠ '-') (hd : e.isDigit = false) : c ≠ e :=
    Decoder.ne_of_number hc hm hd
  obtain ⟨rfl, -⟩ | ⟨rfl | rfl, -⟩ | ⟨-, hd⟩ | ⟨rfl, -⟩ | ⟨rfl, -⟩ | ⟨rfl, -⟩ := h.kinds
  case inr.inr.inl => exact hd
  all_goals exact absurd rfl (hne (by decide) (by decide))

theorem text (h : d.Leads '"') : ∃ s, d = .text s := by
  simpa using h.kinds

theorem list (h : d.Leads '[') : ∃ ds, d = .list ds := by
  simpa using h.kinds

theorem record (h : d.Leads (Char.ofNat 123)) : ∃ fs, d = .record fs := by
  simpa using h.kinds

end Leads

theorem Entire.map {p : Reader α} (h : Entire p) (f : α → β) : Entire (do return f (← p)) := by
  intro d g u r b t hg hu hr hok
  obtain ⟨a, s, ha, hok⟩ := ok_of_bind hok
  obtain rfl : s = t := (Prod.mk.inj (Except.ok.inj hok)).2
  exact h d g u r a s hg hu hr ha

theorem entire_skipValue : Entire skipValue := by
  intro d g u r a t hg hu hr hok
  rw [skipValue_spelled hg hu hr] at hok
  exact (Prod.mk.inj (Except.ok.inj hok)).2.symm

namespace Decoder

theorem entire_textAs (wanted : String) (room : Nat) : Entire (textAs wanted room) := by
  refine (lenient_textAs wanted room).entire fun d u r a t hu hr hok => ?_
  obtain ⟨c, v, rfl, hc⟩ := hu.head
  by_cases hquote : c = '"'
  · subst hquote
    obtain ⟨s, rfl⟩ := hc.text
    exact ((takes_textAs wanted room s).rest hu hr hok).2
  · rw [List.map_cons, List.cons_append, textAs, bind_eq (next_eq hc.not_gap.1),
      if_neg (by simpa using hquote)] at hok
    exact absurd hok wrong_ne_ok

theorem entire_option {value : Decoder α} (h : Entire (value room)) :
    Entire (option value room) := by
  refine Lenient.entire (lenient_next.bind _) fun d u r a t hu hr hok => ?_
  obtain ⟨c, v, rfl, hc⟩ := hu.head
  by_cases hnull : c = 'n'
  · subst hnull
    obtain rfl := hc.null
    exact ((takes_null value room).rest hu hr hok).2
  · rw [List.map_cons, List.cons_append, option, bind_eq (next_eq hc.not_gap.1),
      if_neg (by simpa using hnull)] at hok
    exact h.map some d [] (c :: v) r a t gap_nil hu hr hok

theorem number_of_sees
    (h : (decide ((some c : Piece) = some '-') || (Numeral.digit? (some c)).isSome) = true) :
    c = '-' ∨ c.isDigit = true := by
  simpa [Numeral.digit?, Option.filter, Numeral.isDigit_eq] using h

theorem entire_numeral (wanted : String) (room : Nat) : Entire (numeral wanted room) := by
  refine (lenient_numeral wanted room).entire fun d u r a t hu hr hok => ?_
  obtain ⟨c, v, rfl, hc⟩ := hu.head
  rw [List.map_cons, List.cons_append, numeral, bind_eq (next_eq hc.not_gap.1)] at hok
  dsimp only at hok
  split at hok
  · rename_i hsees
    obtain ⟨text, rfl⟩ := hc.number (number_of_sees hsees)
    have hskip := (Numeral.skip_of_read hok).symm.trans (Numeral.skip_written hu.2 hr)
    exact (Prod.mk.inj (Except.ok.inj hskip)).2
  · exact absurd hok wrong_ne_ok

theorem entire_word64 (wanted : String) (room : Nat) : Entire (word64 wanted room) := by
  refine Entire.map ?_ Int.toNat
  intro d g u r n t hg hu hr hok
  obtain ⟨x, s, hx, hok⟩ := ok_of_bind (ok_of_settled hok)
  have hs := entire_numeral wanted room d g u r x s hg hu hr hx
  cases hwhole : wholeOf wanted 0 0xFFFFFFFFFFFFFFFF x with
  | error e =>
    rw [hwhole] at hok
    cases hok
  | ok m =>
    rw [hwhole] at hok
    exact (Prod.mk.inj (Except.ok.inj hok)).2.symm.trans hs

theorem entire_truth (room : Nat) : Entire (truth room) := by
  refine Lenient.entire (lenient_next.bind _) fun d u r a t hu hr hok => ?_
  obtain ⟨c, v, rfl, hc⟩ := hu.head
  by_cases htruth : c = 't' ∨ c = 'f'
  · obtain ⟨b, rfl⟩ := hc.truth htruth
    exact ((takes_truth b room).rest hu hr hok).2
  · rw [not_or] at htruth
    rw [List.map_cons, List.cons_append, truth, bind_eq (next_eq hc.not_gap.1)] at hok
    dsimp only at hok
    rw [if_neg (by simpa using htruth.1), if_neg (by simpa using htruth.2)] at hok
    exact absurd hok wrong_ne_ok

end Decoder

/-! ### Lists -/

namespace Reader

variable {item : Reader α}

/-- The next item, if there is one, is the next part of the list. -/
theorem BeforeItems.of_nextItem {o : Option α} (h : Entire item) (hs : BeforeItems n ds r s)
    (hok : nextItem n item s = .ok (o, t)) :
    (ds = [] ∧ o = none ∧ t = some ']' :: r) ∨
      ∃ d ds' a, ds = d :: ds' ∧ o = some a ∧ BeforeItems (n + 1) ds' r t := by
  have hok := ok_of_within hok
  cases ds with
  | nil =>
    rw [bind_eq (hs.over _)] at hok
    obtain ⟨rfl, rfl⟩ := Prod.mk.inj (Except.ok.inj hok)
    exact Or.inl ⟨rfl, rfl, rfl⟩
  | cons d ds =>
    obtain ⟨u, s', hitem, hu, hend, hrest⟩ := hs.step
    rw [bind_eq hitem, if_pos rfl] at hok
    obtain ⟨a, t', ha, hok⟩ := ok_of_bind hok
    obtain ⟨rfl, rfl⟩ := Prod.mk.inj (Except.ok.inj hok)
    obtain rfl := h d [] u s' a t' gap_nil hu hend ha
    exact Or.inr ⟨d, ds, a, rfl, rfl, hrest⟩

theorem itemsFrom_rest {as : List α} (seen : List α) (h : Entire item)
    (hs : BeforeItems seen.length ds r s) {fuel : Nat} (hf : ds.length < fuel)
    (hok : itemsFrom item fuel seen s = .ok (as, t)) : t = some ']' :: r := by
  induction ds generalizing seen s fuel with
  | nil =>
    obtain ⟨fuel, rfl⟩ : ∃ k, fuel = k + 1 := ⟨fuel - 1, by omega⟩
    obtain ⟨o, s', hitem, hok⟩ := ok_of_bind hok
    obtain ⟨-, rfl, rfl⟩ | ⟨d, ds, a, hnil, -, -⟩ := hs.of_nextItem h hitem
    · exact (Prod.mk.inj (Except.ok.inj hok)).2.symm
    · cases hnil
  | cons d ds ih =>
    obtain ⟨fuel, rfl⟩ : ∃ k, fuel = k + 1 := ⟨fuel - 1, by omega⟩
    obtain ⟨o, s', hitem, hok⟩ := ok_of_bind hok
    obtain ⟨hnil, -, -⟩ | ⟨d, ds, a, hcons, rfl, hrest⟩ := hs.of_nextItem h hitem
    · cases hnil
    · obtain ⟨rfl, rfl⟩ := List.cons.inj hcons
      exact ih (a :: seen) hrest (by simpa using hf) hok

theorem endList_ne_ok {p : Piece} {x : Unit × Input} (hgap : isGap p = false)
    (hp : p ≠ some ']') : endList (p :: r) ≠ .ok x := by
  intro h
  rw [endList, bind_eq (next_eq hgap)] at h
  dsimp only at h
  rw [if_neg hp] at h
  split at h
  · obtain ⟨-, s', -, h⟩ := ok_of_bind h
    exact bind_fail_ne_ok h
  · cases h

theorem lenient_endList : Lenient endList := lenient_next.bind _

/-- A list ends where its closing mark stands, and nowhere before. -/
theorem BeforeItems.of_endList (hs : BeforeItems n ds r s) (hok : endList s = .ok ((), t)) :
    t = r := by
  obtain ⟨parts, g, hparts, hg, rfl⟩ := hs
  rw [lenient_endList g _ hg] at hok
  cases ds with
  | nil =>
    obtain rfl : parts = [] := hparts
    have hnone : (if n = 0 then join [','] [] else [].flatMap (',' :: ·)) = [] := by
      split <;> rfl
    rw [hnone, List.map_nil, List.nil_append, endList_eq] at hok
    exact (Prod.mk.inj (Except.ok.inj hok)).2.symm
  | cons d ds =>
    obtain ⟨v, rest, ⟨e, u, e', he, -, hu, rfl⟩, -, rfl⟩ := hparts
    obtain ⟨c, w, rfl, hc⟩ := hu.head
    split at hok
    · simp only [join_cons, List.append_assoc, List.map_append, List.map_cons,
        List.cons_append] at hok
      rw [lenient_endList e _ he] at hok
      exact absurd hok (endList_ne_ok hc.not_gap.1 (by simpa using hc.not_gap.2))
    · exact absurd hok (endList_ne_ok (by decide) (by decide))

theorem entire_listOf (wanted : String) (h : Entire item) : Entire (listOf wanted item) := by
  refine Lenient.entire (lenient_next.bind _) fun d u r as t hu hr hok => ?_
  obtain ⟨c, v, rfl, hc⟩ := hu.head
  by_cases hlist : c = '['
  · subst hlist
    obtain ⟨ds, rfl⟩ := hc.list
    obtain ⟨parts, hparts, hu⟩ := hu
    obtain ⟨s, hs, hitems⟩ := BeforeItems.enclosed hparts hu r
    rw [hs, listOf, bind_eq (next_eq (by decide)), if_pos rfl, bind_eq (skip_eq _)] at hok
    obtain ⟨s', hrest, hend⟩ := ok_of_closedBy hok
    have hle := hitems.length_le
    rw [itemsFrom_rest [] h hitems (by omega) hrest, endList_eq] at hend
    exact (Prod.mk.inj (Except.ok.inj hend)).2.symm
  · rw [List.map_cons, List.cons_append, listOf, bind_eq (next_eq hc.not_gap.1),
      if_neg (by simpa using hlist)] at hok
    exact absurd hok wrong_ne_ok

theorem shut_ne_ok {marks : List Piece} {wanted : String} {x : α × Input} :
    shut marks wanted s ≠ .ok x := by
  intro h
  obtain ⟨p, s', -, h⟩ := ok_of_bind h
  cases p with
  | none => exact wrong_ne_ok h
  | some p =>
    dsimp only at h
    split at h
    · cases h
    · exact wrong_ne_ok h

end Reader

theorem entire_list {item : Decoder α} (h : ∀ room, Entire (item room)) (room : Nat) :
    Entire (Decoder.list item room) := by
  cases room with
  | zero => exact fun d g u r as t _ _ _ hok => absurd hok shut_ne_ok
  | succ room => exact entire_listOf _ (h room)

/-! ### Fields -/

namespace Reader

/-- The value of a field is read from what stands behind the colon. -/
theorem of_fieldValue {p : Reader α} (hs : AtValue d s r)
    (hok : fieldValue name p s = .ok (a, t)) : ∃ g u, Gap g ∧ d.SpelledBy u ∧ AtEnd r ∧
      p (g.map some ++ (u.map some ++ r)) = .ok (a, t) := by
  obtain ⟨hg, hg', hu, hr⟩ := hs
  have hok := ok_of_within hok
  rw [bind_eq ((lenient_colon _ _ hg).trans colon_eq)] at hok
  exact ⟨_, _, hg', hu, hr, hok⟩

theorem fieldValue_rest {p : Reader α} (h : Entire p) (hs : AtValue d s r)
    (hok : fieldValue name p s = .ok (a, t)) : t = r := by
  obtain ⟨g, u, hg, hu, hr, hok⟩ := of_fieldValue hs hok
  exact h d g u r a t hg hu hr hok

variable {field : α → String → Reader α}

/-- The fields of a record, as they were written, have changed a value step by step. -/
inductive Walks (field : α → String → Reader α) : List (String × Json) → α → α → Prop
  | nil {a : α} : Walks field [] a a
  | cons {name : String} {d : Json} {fs : List (String × Json)} {a b c : α} {s t : Input} :
    AtValue d s t → field a name s = .ok (b, t) → Walks field fs b c →
      Walks field ((name, d) :: fs) a c

/-- If the fields of a record are gone through, each of them is, up to the closing mark. -/
theorem foldFieldsFrom_walks
    (h : ∀ a b name d s r t, AtValue d s r → field a name s = .ok (b, t) → t = r)
    (hs : BeforeFields isFirst fs r s) {fuel : Nat} (hf : fs.length < fuel)
    (hok : foldFieldsFrom field fuel isFirst a s = .ok (b, t)) :
    t = closing :: r ∧ Walks field fs a b := by
  induction fs generalizing isFirst s fuel a with
  | nil =>
    obtain ⟨fuel, rfl⟩ : ∃ k, fuel = k + 1 := ⟨fuel - 1, by omega⟩
    rw [foldFieldsFrom, bind_eq hs.over] at hok
    obtain ⟨rfl, rfl⟩ := Prod.mk.inj (Except.ok.inj hok)
    exact ⟨rfl, .nil⟩
  | cons f fs ih =>
    obtain ⟨fuel, rfl⟩ : ∃ k, fuel = k + 1 := ⟨fuel - 1, by omega⟩
    obtain ⟨s', t', hname, hvalue, hrest⟩ := hs.step
    rw [foldFieldsFrom, bind_eq hname] at hok
    obtain ⟨c, t'', hc, hok⟩ := ok_of_bind hok
    obtain rfl := h _ _ _ _ _ _ _ hvalue hc
    obtain ⟨ht, hwalks⟩ := ih hrest (by simpa using hf) hok
    exact ⟨ht, .cons hvalue hc hwalks⟩

end Reader

/-! ### Records -/

namespace Record

/-- The fields of a record are read to their ends. -/
def EntireFields (q : Record α) : Prop := ∀ f ∈ q.fields, ∀ room, Entire (f.read room)

theorem entireFields_single {optional : Bool} {value : Decoder α} {missing : Except Cause α}
    (h : ∀ room, Entire (value room)) :
    (single name optional value missing).EntireFields := by
  intro f hf room
  obtain rfl := List.mem_singleton.mp hf
  exact (h room).map fun a _ => some a

theorem entireFields_required (name : String) {value : Decoder α}
    (h : ∀ room, Entire (value room)) : (required name value).EntireFields :=
  entireFields_single h

theorem entireFields_possible (name : String) {value : Decoder α}
    (h : ∀ room, Entire (value room)) : (possible name value).EntireFields :=
  entireFields_single fun room => Decoder.entire_option (h room)

theorem entireFields_withDefault (name : String) {value : Decoder α} (default : α)
    (h : ∀ room, Entire (value room)) : (withDefault name value default).EntireFields :=
  entireFields_single h

theorem EntireFields.map {q : Record α} (h : q.EntireFields) (f : α → β) :
    (q.map f).EntireFields := h

theorem EntireFields.apply {q : Record (α → β)} {q' : Record α} (h : q.EntireFields)
    (h' : q'.EntireFields) : (q.apply q').EntireFields := by
  intro f hf room
  rcases List.mem_append.mp hf with hf | hf
  · obtain ⟨f', hf', rfl⟩ := List.mem_map.mp hf
    exact (h f' hf' room).map fun put => Prod.map put id
  · obtain ⟨f', hf', rfl⟩ := List.mem_map.mp hf
    exact (h' f' hf' room).map fun put => Prod.map id put

variable {q : Record α}

/-- What reading a field into a draft does: it puts the value of a known field there that the draft
has not yet, or passes over the value of an unknown one. -/
theorem of_readField {x y : q.Draft} (hok : q.readField room x name s = .ok (y, t)) :
    (∃ f put, q.fields.find? (fun f => f.name == name) = some f ∧ f.taken x = false ∧
      fieldValue name (f.read room) s = .ok (put, t) ∧ y = put x) ∨
    (q.fields.find? (fun f => f.name == name) = none ∧
      fieldValue name skipValue s = .ok ((), t) ∧ y = x) := by
  cases hf : q.fields.find? fun f => f.name == name with
  | some f =>
    cases ht : f.taken x with
    | true =>
      rw [readField_repeated hf ht] at hok
      cases hok
    | false =>
      rw [readField_known hf ht] at hok
      obtain ⟨put, s', hput, hok⟩ := ok_of_bind hok
      obtain ⟨rfl, rfl⟩ := Prod.mk.inj (Except.ok.inj hok)
      exact Or.inl ⟨f, put, rfl, ht, hput, rfl⟩
  | none =>
    rw [readField_unknown x hf] at hok
    obtain ⟨_, s', hskip, hok⟩ := ok_of_bind hok
    obtain ⟨rfl, rfl⟩ := Prod.mk.inj (Except.ok.inj hok)
    exact Or.inr ⟨rfl, hskip, rfl⟩

theorem readField_rest (h : q.EntireFields) {x y : q.Draft} (hs : AtValue d s r)
    (hok : q.readField room x name s = .ok (y, t)) : t = r := by
  obtain ⟨f, put, hf, -, hput, -⟩ | ⟨-, hskip, -⟩ := of_readField hok
  · exact fieldValue_rest (h f (List.mem_of_find?_eq_some hf) room) hs hput
  · exact fieldValue_rest entire_skipValue hs hskip

theorem ok_of_ofExcept {e : Except Cause α} (hok : ofExcept e s = .ok (a, t)) :
    e = .ok a ∧ t = s := by
  cases e with
  | error c => cases hok
  | ok b =>
    obtain ⟨rfl, rfl⟩ := Prod.mk.inj (Except.ok.inj hok)
    exact ⟨rfl, rfl⟩

theorem lenient_read (q : Record α) (name : String) (room : Nat) : Lenient (q.read name room) :=
  lenient_next.bind _

/-- The fields of a record have made a value. -/
def Made (q : Record α) (room : Nat) (fs : List (String × Json)) (a : α) : Prop :=
  ∃ x, Walks (q.readField room) fs q.blank x ∧ q.finish x = .ok a

/-- A record that is read is made of its fields, up to its closing mark. -/
theorem EntireFields.made (h : q.EntireFields) (hu : SpelledBy (.record fs) u)
    (hok : q.read name (room + 1) (u.map some ++ r) = .ok (a, t)) :
    t = r ∧ q.Made room fs a := by
  obtain ⟨parts, hparts, hu⟩ := hu
  obtain ⟨s, hs, hfields⟩ := BeforeFields.enclosed hparts hu r
  have hle := hfields.length_le
  rw [hs, read, bind_eq (next_eq (by decide))] at hok
  dsimp only at hok
  rw [if_pos (Or.inr rfl), bind_eq (skip_eq _), if_pos rfl] at hok
  obtain ⟨s', hinside, hend⟩ := ok_of_closedBy hok
  obtain ⟨x, s'', hfold, hfinish⟩ := ok_of_bind hinside
  obtain ⟨hx, rfl⟩ := ok_of_ofExcept hfinish
  obtain ⟨rfl, hwalks⟩ := foldFieldsFrom_walks
    (fun _ _ _ _ _ _ _ hs hok => readField_rest h hs hok) hfields (by omega) hfold
  rw [endRecord_eq] at hend
  exact ⟨(Prod.mk.inj (Except.ok.inj hend)).2.symm, x, hwalks, hx⟩

variable {σ : Type}

/-- The fields of a record may stand in a list. -/
theorem readItems_rest {fields : List (Field σ)} (h : ∀ f ∈ fields, Entire (f.read room))
    {wanted : String} {x y : σ} (hs : BeforeItems n ds r s)
    (hok : readItems room wanted n fields x s = .ok (y, t)) : ∃ m ds', BeforeItems m ds' r t := by
  induction fields generalizing n ds x s with
  | nil =>
    obtain ⟨-, rfl⟩ := Prod.mk.inj (Except.ok.inj hok)
    exact ⟨n, ds, hs⟩
  | cons f fields ih =>
    obtain ⟨hf, hfields⟩ := List.forall_mem_cons.mp h
    obtain ⟨o, s', hitem, hok⟩ := ok_of_bind hok
    obtain ⟨rfl, rfl, rfl⟩ | ⟨d, ds', put, rfl, rfl, hrest⟩ := hs.of_nextItem hf hitem
    · dsimp only at hok
      split at hok
      · exact ih hfields (beforeItems_over (Nat.succ_ne_zero n) r) hok
      · cases hok
    · exact ih hfields hrest hok

theorem EntireFields.entire (h : q.EntireFields) (name : String) (room : Nat) :
    Entire (q.read name room) := by
  refine Lenient.entire (lenient_next.bind _) fun d u r a t hu hr hok => ?_
  obtain ⟨c, v, rfl, hc⟩ := hu.head
  have hread := hok
  rw [List.map_cons, List.cons_append, read, bind_eq (next_eq hc.not_gap.1)] at hok
  split at hok
  · cases room with
    | zero => cases hok
    | succ room =>
      dsimp only at hok
      rw [bind_eq (skip_eq _)] at hok
      rename_i hmark
      rcases hmark with hmark | hmark
      · obtain rfl : c = '[' := by simpa using hmark
        obtain ⟨ds, rfl⟩ := hc.list
        obtain ⟨parts, hparts, hu⟩ := hu
        obtain ⟨s, hs, hitems⟩ := BeforeItems.enclosed hparts hu r
        rw [List.map_cons, List.cons_append, List.cons.injEq] at hs
        rw [if_neg (by decide), hs.2] at hok
        obtain ⟨s', hinside, hend⟩ := ok_of_closedBy hok
        obtain ⟨x, s'', hread, hfinish⟩ := ok_of_bind hinside
        obtain ⟨-, rfl⟩ := ok_of_ofExcept hfinish
        obtain ⟨m, ds', hrest⟩ := readItems_rest (fun f hf => h f hf room) hitems hread
        exact hrest.of_endList hend
      · obtain rfl : c = Char.ofNat 123 := by simpa [opening] using hmark
        obtain ⟨fs, rfl⟩ := hc.record
        exact (h.made hu hread).1
  · exact absurd hok wrong_ne_ok

/-! What a record that was read has been made of. -/

/-- The reader takes some text that stands for a document for a value. -/
def Gives (p : Reader α) (d : Json) (a : α) : Prop :=
  ∃ g u r t, Gap g ∧ d.SpelledBy u ∧ AtEnd r ∧ p (g.map some ++ (u.map some ++ r)) = .ok (a, t)

theorem Gives.eq {p : Reader α} (h : Gives p d a) (hb : Takes p d b) : a = b := by
  obtain ⟨g, u, r, t, hg, hu, hr, hok⟩ := h
  rw [hb g u r hg hu hr] at hok
  exact (Prod.mk.inj (Except.ok.inj hok)).1.symm

theorem gives_of_fieldValue {p : Reader α} (hs : AtValue d s r)
    (hok : fieldValue name p s = .ok (a, t)) : Gives p d a := by
  obtain ⟨g, u, hg, hu, hr, hok⟩ := of_fieldValue hs hok
  exact ⟨g, u, r, t, hg, hu, hr, hok⟩

theorem fieldValue_map {p : Reader α} {f : α → β} {y : β}
    (hok : fieldValue name (do return f (← p)) s = .ok (y, t)) :
    ∃ a, fieldValue name p s = .ok (a, t) ∧ y = f a := by
  obtain ⟨_, s', hcolon, hok⟩ := ok_of_bind (ok_of_within hok)
  obtain ⟨a, t', ha, hok⟩ := ok_of_bind hok
  obtain ⟨rfl, rfl⟩ := Prod.mk.inj (Except.ok.inj hok)
  exact ⟨a, within_eq ((bind_eq hcolon).trans ha), rfl⟩

section Both

variable {q' : Record β} {x y : q.Draft × q'.Draft}

/-- Of two groups of fields that are read together, the first does not see what the second reads. -/
theorem readField_fst (hs : AtValue d s t)
    (hok : (q.both q').readField room x name s = .ok (y, t)) :
    q.readField room x.1 name s = .ok (y.1, t) := by
  have hboth : (q.both q').fields.find? (fun f => f.name == name) = _ :=
    find?_both q.fields q'.fields name
  have hskip := fieldValue_takes (takes_skipValue d) hs name
  cases hf : q.fields.find? fun f => f.name == name with
  | some f =>
    rw [hf] at hboth
    obtain ⟨f', put, hf', ht, hput, rfl⟩ | ⟨hf', -, -⟩ := of_readField hok
    · obtain rfl : f.left = f' := Option.some.inj (hboth.symm.trans hf')
      obtain ⟨put, hvalue, rfl⟩ := fieldValue_map hput
      rw [readField_known hf ht]
      exact bind_eq hvalue
    · cases hboth.symm.trans hf'
  | none =>
    rw [readField_unknown _ hf]
    obtain ⟨f', put, hf', ht, hput, rfl⟩ | ⟨hf', -, rfl⟩ := of_readField hok
    · rw [hf, hf'] at hboth
      obtain ⟨g, -, rfl⟩ := Option.map_eq_some_iff.mp hboth.symm
      obtain ⟨put, -, rfl⟩ := fieldValue_map hput
      exact bind_eq hskip
    · exact bind_eq hskip

/-- Nor does the second see what the first reads. -/
theorem readField_snd (hn : ∀ f ∈ q.fields, ∀ f' ∈ q'.fields, f.name ≠ f'.name)
    (hs : AtValue d s t) (hok : (q.both q').readField room x name s = .ok (y, t)) :
    q'.readField room x.2 name s = .ok (y.2, t) := by
  have hboth : (q.both q').fields.find? (fun f => f.name == name) = _ :=
    find?_both q.fields q'.fields name
  have hskip := fieldValue_takes (takes_skipValue d) hs name
  cases hf : q.fields.find? fun f => f.name == name with
  | some f =>
    rw [readField_unknown _ (find?_eq_none_of_find?_eq_some hn hf)]
    rw [hf] at hboth
    obtain ⟨f', put, hf', ht, hput, rfl⟩ | ⟨hf', -, -⟩ := of_readField hok
    · obtain rfl : f.left = f' := Option.some.inj (hboth.symm.trans hf')
      obtain ⟨put, -, rfl⟩ := fieldValue_map hput
      exact bind_eq hskip
    · cases hboth.symm.trans hf'
  | none =>
    rw [hf] at hboth
    obtain ⟨f', put, hf', ht, hput, rfl⟩ | ⟨hf', -, rfl⟩ := of_readField hok
    · obtain ⟨g, hg, rfl⟩ := Option.map_eq_some_iff.mp (hboth.symm.trans hf')
      obtain ⟨put, hvalue, rfl⟩ := fieldValue_map hput
      rw [readField_known hg ht]
      exact bind_eq hvalue
    · rw [readField_unknown _ (Option.map_eq_none_iff.mp (hboth.symm.trans hf'))]
      exact bind_eq hskip

theorem walks_fst (h : Walks ((q.both q').readField room) fs x y) :
    Walks (q.readField room) fs x.1 y.1 := by
  induction h with
  | nil => exact .nil
  | cons hs hok _ ih => exact .cons hs (readField_fst hs hok) ih

theorem walks_snd (hn : ∀ f ∈ q.fields, ∀ f' ∈ q'.fields, f.name ≠ f'.name)
    (h : Walks ((q.both q').readField room) fs x y) : Walks (q'.readField room) fs x.2 y.2 := by
  induction h with
  | nil => exact .nil
  | cons hs hok _ ih => exact .cons hs (readField_snd hn hs hok) ih

end Both

theorem readField_map (f : α → β) (q : Record α) (room : Nat) :
    (q.map f).readField room = q.readField room := by
  funext x name
  cases hf : q.fields.find? fun f => f.name == name with
  | some g =>
    cases ht : g.taken x with
    | true => exact (readField_repeated (q := q.map f) hf ht).trans (readField_repeated hf ht).symm
    | false => exact (readField_known (q := q.map f) hf ht).trans (readField_known hf ht).symm
  | none =>
    exact (readField_unknown (q := q.map f) x hf).trans (readField_unknown (q := q) x hf).symm

theorem made_map {f : α → β} {y : β} (h : (q.map f).Made room fs y) :
    ∃ a, q.Made room fs a ∧ y = f a := by
  obtain ⟨x, hx, hfinish⟩ := h
  cases ha : q.finish x with
  | error c => simp [Record.map, ha, Except.map] at hfinish
  | ok a =>
    simp only [Record.map, ha, Except.map, Except.ok.injEq] at hfinish
    exact ⟨a, ⟨x, readField_map f q room ▸ hx, ha⟩, hfinish.symm⟩

theorem made_apply {q : Record (α → β)} {q' : Record α} {y : β}
    (hn : ∀ name ∈ q.names, name ∉ q'.names) (h : (q.apply q').Made room fs y) :
    ∃ f a, q.Made room fs f ∧ q'.Made room fs a ∧ y = f a := by
  obtain ⟨p, ⟨x, hx, hfinish⟩, rfl⟩ := made_map h
  cases hf : q.finish x.1 with
  | error c => simp [both, hf, bind, Except.bind] at hfinish
  | ok f =>
    cases ha : q'.finish x.2 with
    | error c => simp [both, hf, ha, bind, Except.bind] at hfinish
    | ok a =>
      simp only [both, hf, ha, bind, Except.bind, pure, Except.pure, Except.ok.injEq] at hfinish
      subst hfinish
      exact ⟨f, a, ⟨x.1, walks_fst hx, hf⟩, ⟨x.2, walks_snd (ne_of_names hn) hx, ha⟩, rfl⟩

section Single

variable {optional : Bool} {value : Decoder α} {missing : Except Cause α} {x y : Option α}

theorem readField_single
    (hok : (single name optional value missing).readField room x name s = .ok (y, t)) :
    x = none ∧ ∃ a, fieldValue name (value room) s = .ok (a, t) ∧ y = some a := by
  obtain ⟨f, put, hf, ht, hput, rfl⟩ | ⟨hf, -, -⟩ := of_readField hok
  · obtain rfl : _ = f := Option.some.inj ((List.find?_cons_of_pos (by simp)).symm.trans hf)
    obtain ⟨a, ha, rfl⟩ := fieldValue_map hput
    exact ⟨Option.not_isSome_iff_eq_none.mp (by simpa using ht), a, ha, rfl⟩
  · exact absurd hf (by simp [single])

theorem readField_single_ne {other : String} (hne : other ≠ name)
    (hok : (single name optional value missing).readField room x other s = .ok (y, t)) : y = x := by
  obtain ⟨f, put, hf, -⟩ | ⟨-, -, rfl⟩ := of_readField hok
  · exact absurd hf (by simp [single, Ne.symm hne])
  · rfl

/-- A draft of a single field takes the one value under its name. -/
theorem walks_single (h : Walks ((single name optional value missing).readField room) fs x y) :
    (valuesOf name fs = [] ∧ y = x) ∨
      ∃ d a, valuesOf name fs = [d] ∧ Gives (value room) d a ∧ x = none ∧ y = some a := by
  induction h with
  | nil => exact Or.inl ⟨rfl, rfl⟩
  | @cons other d fs x y z s t hs hok _ ih =>
    by_cases hname : other = name
    · subst hname
      have hvalues : valuesOf other ((other, d) :: fs) = d :: valuesOf other fs := by
        simp [valuesOf]
      obtain ⟨rfl, a, ha, rfl⟩ := readField_single hok
      obtain ⟨hnone, rfl⟩ | ⟨d', a', -, -, hnone, -⟩ := ih
      · exact Or.inr ⟨d, a, by rw [hvalues, hnone], gives_of_fieldValue hs ha, rfl, rfl⟩
      · cases hnone
    · have hvalues : valuesOf name ((other, d) :: fs) = valuesOf name fs := by
        simp [valuesOf, hname]
      rw [hvalues]
      obtain rfl := readField_single_ne hname hok
      exact ih

/-- A field of a record that has been read has at most one value. -/
theorem made_single (h : (single name optional value missing).Made room fs a) :
    (valuesOf name fs = [] ∧ missing = .ok a) ∨
      ∃ d, valuesOf name fs = [d] ∧ Gives (value room) d a := by
  obtain ⟨y, hy, hfinish⟩ := h
  obtain ⟨hnone, rfl⟩ | ⟨d, b, hone, hb, -, rfl⟩ := walks_single hy
  · exact Or.inl ⟨hnone, hfinish⟩
  · obtain rfl := Except.ok.inj hfinish
    exact Or.inr ⟨d, hone, hb⟩

end Single

end Record

/-- A text that is read is read by its reader. -/
theorem Decoder.ok_of_runText {value : Decoder α} (h : value.runText u = .ok a) :
    ∃ r, value roomLimit (u.map some) = .ok (a, r) := by
  rw [runText] at h
  cases hrun : value.run (u.map some) with
  | error e => simp [hrun, Except.mapError] at h
  | ok b =>
    obtain rfl : b = a := by simpa [hrun, Except.mapError] using h
    cases hv : value roomLimit (u.map some) with
    | error e => simp [run, hv, bind, Except.bind] at hrun
    | ok y =>
      simp only [run, hv, bind, Except.bind] at hrun
      split at hrun
      · exact ⟨y.2, congrArg (fun a => Except.ok (a, y.2)) (Except.ok.inj hrun)⟩
      · cases hrun

end Retrace.Json
