import Mathlib.Data.List.Forall2
import Retrace.Json.Record
import Retrace.Proofs.Json.Integers

/-! Scalars, lists and the fields of records are read as they are written. -/
namespace Retrace.Json

open Retrace.Text Reader

variable {α β : Type} {s t r : Input} {letters : Letters} {a b : α}

def listText (items : List (List Char)) : List Char := '[' :: join [','] items ++ [']']

def fieldText (f : String × List Char) : List Char :=
  quoteWith recordLetters f.1.toList ++ ':' :: f.2

def recordText (fields : List (String × List Char)) : List Char :=
  Char.ofNat 123 :: join [','] (fields.map fieldText) ++ [Char.ofNat 125]

theorem join_cons (t : List Char) (ts : List (List Char)) :
    join [','] (t :: ts) = t ++ ts.flatMap (',' :: ·) := by
  induction ts generalizing t with
  | nil => simp [join]
  | cons u ts ih => simp [join, ih]

/-- A name without anything to escape stands between its quotes as it is. -/
theorem fieldText_plain (name : String)
    (h : name.toList.flatMap (escape recordLetters) = name.toList) (u : List Char) :
    fieldText (name, u) = '"' :: name.toList ++ '"' :: ':' :: u := by
  simp [fieldText, quoteWith, h]

theorem sound_recordLetters : Sound recordLetters := sound_of_forall (by decide)

namespace Reader

theorem ofExcept_ok (a : α) : ofExcept (.ok a) s = .ok (a, s) := rfl

theorem settled_eq {p : Reader α} (h : p s = .ok (a, t)) : settled p s = .ok (a, t) := by
  simp [settled, h, Except.mapError]

theorem within_eq {p : Reader α} {segment : Segment} (h : p s = .ok (a, t)) :
    within segment p s = .ok (a, t) := by
  simp [within, h, Except.mapError]

theorem closedBy_eq {p : Reader α} {finish : Reader Unit} (h : p s = .ok (a, t))
    (hf : finish t = .ok ((), r)) : closedBy finish p s = .ok (a, r) := by
  simp [closedBy, h, hf, Except.map]

theorem endList_eq : endList (some ']' :: r) = .ok ((), r) := by
  rw [endList, bind_eq (next_eq (by decide))]
  rfl

theorem endRecord_eq : endRecord (closing :: r) = .ok ((), r) := by
  rw [endRecord, bind_eq (next_eq (by decide))]
  rfl

end Reader

/-! ### Scalars -/

namespace Decoder

theorem reads_textAs (hl : Sound letters) (wanted : String) (room : Nat) (u : List Char) :
    Reads (textAs wanted room) (quoteWith letters u) (String.ofList u) where
  starts := starts_quoteWith letters u
  takes r _ := by
    rw [map_quoteWith, textAs, bind_eq (next_eq (by decide)), if_pos rfl, bind_eq (skip_eq _),
      text_flatMap hl]

theorem reads_text (hl : Sound letters) (room : Nat) (u : List Char) :
    Reads (text room) (quoteWith letters u) (String.ofList u) :=
  reads_textAs hl _ room u

theorem starts_toString (n : Int) :
    ∃ c u, (toString n).toList = c :: u ∧ (c = '-' ∨ c.isDigit = true) := by
  rw [toList_toString_int]
  split
  · exact ⟨'-', _, rfl, Or.inl rfl⟩
  · cases hds : Nat.toDigits 10 n.natAbs with
    | nil => exact absurd hds Nat.toDigits_ne_nil
    | cons c ds =>
      have hm : c ∈ Nat.toDigits 10 n.natAbs := by simp [hds]
      exact ⟨c, ds, rfl, Or.inr (Nat.isDigit_of_mem_toDigits (by decide) (by decide) hm)⟩

/-- A number starts with no other characters than a minus sign and digits. -/
theorem ne_of_number {c d : Char} (h : c = '-' ∨ c.isDigit = true) (hm : d ≠ '-')
    (hd : d.isDigit = false) : c ≠ d := by
  rintro rfl
  rcases h with h | h
  · exact hm h
  · simp [h] at hd

theorem not_gap_of_number {c : Char} (h : c = '-' ∨ c.isDigit = true) :
    isGap (some c) = false ∧ c ≠ ']' := by
  refine ⟨?_, ne_of_number h (by decide) (by decide)⟩
  simp [isGap, ne_of_number (d := ' ') h (by decide) (by decide),
    ne_of_number (d := '\n') h (by decide) (by decide),
    ne_of_number (d := '\t') h (by decide) (by decide),
    ne_of_number (d := '\r') h (by decide) (by decide)]

theorem sees_number {c : Char} (h : c = '-' ∨ c.isDigit = true) :
    (decide ((some c : Piece) = some '-') || (Numeral.digit? (some c)).isSome) = true := by
  rcases h with rfl | h
  · decide
  · simp [Numeral.digit?_some h]

theorem starts_number (n : Int) : Starts (toString n).toList := by
  obtain ⟨c, u, hu, hc⟩ := starts_toString n
  obtain ⟨hg, hb⟩ := not_gap_of_number hc
  exact ⟨c, u, hu, hg, hb⟩

theorem numeral_toString {n : Int} (hlo : -0x8000000000000000 ≤ n) (hhi : n ≤ 0xFFFFFFFFFFFFFFFF)
    (h : AtEnd r) (wanted : String) (room : Nat) :
    numeral wanted room ((toString n).toList.map some ++ r) = .ok (.whole n, r) := by
  have hread := Numeral.read_toString hlo hhi h
  obtain ⟨c, u, hu, hc⟩ := starts_toString n
  rw [hu] at hread ⊢
  simp only [List.map_cons, List.cons_append] at hread ⊢
  rw [numeral, bind_eq (next_eq (not_gap_of_number hc).1)]
  dsimp only
  rw [if_pos (sees_number hc), hread]

/-- An integer between the bounds of its type is read as it is written. -/
theorem reads_whole {n lo hi : Int} (hn : lo ≤ n ∧ n ≤ hi) (hlo : -0x8000000000000000 ≤ n)
    (hhi : n ≤ 0xFFFFFFFFFFFFFFFF) (wanted : String) (room : Nat) :
    Reads (whole wanted lo hi room) (toString n).toList n where
  starts := starts_number n
  takes r hr := by
    apply settled_eq
    rw [bind_eq (numeral_toString hlo hhi hr wanted room)]
    simp [wholeOf, hn, ofExcept_ok]

/-- A natural number within its type is read as it is written. -/
theorem reads_natural {n : Nat} {hi : Int} (hn : n ≤ hi) (hhi : hi ≤ 0xFFFFFFFFFFFFFFFF)
    (wanted : String) (room : Nat) :
    Reads (do return (← whole wanted 0 hi room).toNat) (toString n).toList n := by
  have hw : Reads (whole wanted 0 hi room) (toString (n : Int)).toList (n : Int) :=
    reads_whole ⟨by omega, hn⟩ (by omega) (by omega) _ _
  exact hw.map Int.toNat

theorem reads_word32 {n : Nat} (hn : n ≤ 0xFFFFFFFF) (room : Nat) :
    Reads (word32 room) (toString n).toList n :=
  reads_natural (by omega) (by omega) "u32" room

theorem reads_word64 {n : Nat} (hn : n ≤ 0xFFFFFFFFFFFFFFFF) (wanted : String) (room : Nat) :
    Reads (word64 wanted room) (toString n).toList n :=
  reads_natural (by omega) (by omega) wanted room

theorem reads_truth (b : Bool) (room : Nat) :
    Reads (truth room) (if b then "true" else "false").toList b where
  starts := by
    cases b
    · exact ⟨'f', _, rfl, by decide, by decide⟩
    · exact ⟨'t', _, rfl, by decide, by decide⟩
  takes r _ := by
    cases b
    · rw [truth, bind_eq (next_head (p := some 'f') rfl (by decide))]
      exact bind_eq (word_eq "false".toList)
    · rw [truth, bind_eq (next_head (p := some 't') rfl (by decide))]
      exact bind_eq (word_eq "true".toList)

theorem reads_char (hl : Sound letters) (c : Char) (room : Nat) :
    Reads (char room) (quoteWith letters [c]) c := by
  have ht := reads_textAs hl "a character" room [c]
  refine ⟨ht.starts, fun r hr => ?_⟩
  apply settled_eq
  rw [bind_eq (ht.takes r hr)]
  simp [charOf, ofExcept_ok]

/-- A choice is read by its name. -/
theorem reads_choice (hl : Sound letters) {choices : List (String × α)} {name : String}
    (h : choices.lookup name = some a) (room : Nat) :
    Reads (choice choices room) (quoteWith letters name.toList) a := by
  have ht := reads_textAs hl "variant identifier" 0 name.toList
  refine ⟨ht.starts, fun r hr => ?_⟩
  rw [choice, bind_eq (next_head (p := some '"') rfl (by decide))]
  apply settled_eq
  rw [bind_eq (ht.takes r hr)]
  simp [choiceOf, h, ofExcept_ok]

/-- A value that may be null is read like any other when it is there. -/
theorem reads_some {value : Decoder α} {room : Nat} {u : List Char} (h : Reads (value room) u a)
    (hn : u.head? ≠ some 'n') : Reads (option value room) u (some a) := by
  refine ⟨h.starts, fun r hr => ?_⟩
  obtain ⟨c, w, rfl, hg, _⟩ := h.starts
  have hc : c ≠ 'n' := by simpa using hn
  have hv := h.takes r hr
  simp only [List.map_cons, List.cons_append] at hv ⊢
  rw [option, bind_eq (next_eq hg)]
  simp only [Option.some.injEq, hc, if_false]
  rw [bind_eq hv]
  rfl

end Decoder

/-! ### Lists -/

namespace Reader

theorem hasItem_first {u : List Char} (h : Starts u) :
    hasItem true (u.map some ++ r) = .ok (true, u.map some ++ r) := by
  obtain ⟨c, w, rfl, hg, hb⟩ := h
  simp only [List.map_cons, List.cons_append]
  rw [hasItem, bind_eq (next_eq hg)]
  simp [hb, pure_eq]

theorem hasItem_next {u : List Char} (h : Starts u) :
    hasItem false (some ',' :: (u.map some ++ r)) = .ok (true, u.map some ++ r) := by
  obtain ⟨c, w, rfl, hg, hb⟩ := h
  simp only [List.map_cons, List.cons_append]
  rw [hasItem, bind_eq (next_eq (by decide))]
  dsimp only
  rw [if_neg (by decide), if_neg (by decide), if_pos rfl, bind_eq (skip_eq _),
    bind_eq (next_eq hg)]
  simp [hb, pure_eq]

theorem hasItem_over (isFirst : Bool) :
    hasItem isFirst (some ']' :: r) = .ok (false, some ']' :: r) := by
  rw [hasItem, bind_eq (next_eq (by decide))]
  rfl

theorem nextItem_first {item : Reader α} {u : List Char} (h : Reads item u a) (hr : AtEnd r) :
    nextItem 0 item (u.map some ++ r) = .ok (some a, r) := by
  apply within_eq
  rw [show ((0 : Nat) == 0) = true from rfl, bind_eq (hasItem_first h.starts)]
  simp only [if_pos]
  rw [bind_eq (h.takes r hr)]
  rfl

theorem nextItem_next {item : Reader α} {u : List Char} {n : Nat} (hn : n ≠ 0)
    (h : Reads item u a) (hr : AtEnd r) :
    nextItem n item (some ',' :: (u.map some ++ r)) = .ok (some a, r) := by
  apply within_eq
  rw [show (n == 0) = false by simpa using hn, bind_eq (hasItem_next h.starts)]
  simp only [if_pos]
  rw [bind_eq (h.takes r hr)]
  rfl

theorem nextItem_over (item : Reader α) (n : Nat) :
    nextItem n item (some ']' :: r) = .ok (none, some ']' :: r) := by
  apply within_eq
  rw [bind_eq (hasItem_over _)]
  rfl

/-- Nothing goes on with a value before parts that stand behind their commas. -/
theorem atEnd_parts (us : List (List Char)) (hr : AtEnd r) :
    AtEnd ((us.flatMap (',' :: ·)).map some ++ r) := by
  cases us with
  | nil => exact hr
  | cons => exact atEnd_comma _

theorem length_le_length_parts (us : List (List Char)) :
    us.length ≤ (us.flatMap (',' :: ·)).length := by
  have hpos : ∀ u : List Char, 0 < (',' :: u).length := fun u => Nat.zero_lt_succ u.length
  exact length_le_length_flatMap hpos us

/-- After some items the loop reads the others, each behind its comma. -/
theorem itemsFrom_eq {item : Reader α} {us : List (List Char)} {as : List α}
    (h : List.Forall₂ (Reads item) us as) (seen : List α) (hs : seen ≠ []) {fuel : Nat}
    (hf : us.length < fuel) :
    itemsFrom item fuel seen ((us.flatMap (',' :: ·)).map some ++ some ']' :: r) =
      .ok (seen.reverse ++ as, some ']' :: r) := by
  induction h generalizing seen fuel with
  | nil =>
    obtain ⟨fuel, rfl⟩ : ∃ k, fuel = k + 1 := ⟨fuel - 1, by omega⟩
    rw [itemsFrom]
    simp only [List.flatMap_nil, List.map_nil, List.nil_append]
    rw [bind_eq (nextItem_over _ _)]
    simp [pure_eq]
  | @cons u a us as hu _ ih =>
    obtain ⟨fuel, rfl⟩ : ∃ k, fuel = k + 1 := ⟨fuel - 1, by omega⟩
    have hend := atEnd_parts us (atEnd_bracket r)
    have hlen : seen.length ≠ 0 := by simpa using hs
    rw [itemsFrom]
    simp only [List.flatMap_cons, List.map_append, List.map_cons, List.cons_append,
      List.append_assoc]
    rw [bind_eq (nextItem_next hlen hu hend)]
    dsimp only
    rw [ih (a :: seen) (by simp) (by simpa using hf)]
    simp

theorem items_eq {item : Reader α} {us : List (List Char)} {as : List α}
    (h : List.Forall₂ (Reads item) us as) :
    items item ((join [','] us).map some ++ some ']' :: r) = .ok (as, some ']' :: r) := by
  cases h with
  | nil =>
    simp only [join, List.map_nil, List.nil_append, items, List.length_cons]
    rw [itemsFrom, bind_eq (nextItem_over _ _)]
    rfl
  | @cons u a us as hu hus =>
    have hend := atEnd_parts us (atEnd_bracket r)
    have hle := length_le_length_parts us
    rw [join_cons, List.map_append, List.append_assoc]
    simp only [items, List.length_append, List.length_map, List.length_cons]
    rw [itemsFrom, List.length_nil, bind_eq (nextItem_first hu hend)]
    dsimp only
    rw [itemsFrom_eq hus [a] (by simp) (by omega)]
    simp

end Reader

theorem Decoder.reads_list {item : Decoder α} {room : Nat} {us : List (List Char)} {as : List α}
    (h : List.Forall₂ (Reads (item room)) us as) :
    Reads (Decoder.list item (room + 1)) (listText us) as where
  starts := ⟨'[', _, rfl, by decide, by decide⟩
  takes r _ := by
    simp only [listText, List.cons_append, List.map_cons, List.map_append, List.append_assoc,
      List.map_nil, List.nil_append]
    rw [Decoder.list, listOf, bind_eq (next_eq (by decide))]
    simp only [if_pos]
    rw [bind_eq (skip_eq _)]
    exact closedBy_eq (items_eq h) endList_eq

end Retrace.Json
