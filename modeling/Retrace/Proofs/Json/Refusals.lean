import Retrace.Proofs.Json.Restores

/-! Written forms that a reader does not take. What a part of a list or of a record is refused for, the
whole is refused for. -/
namespace Retrace.Json

open Retrace.Text Reader

variable {α β : Type} {s r : Input} {u : List Char} {us : List (List Char)} {room : Nat}

/-- A reader does not take a text, whatever stands after it. -/
structure Refuses (p : Reader α) (u : List Char) : Prop where
  starts : Starts u
  fails : ∀ r, AtEnd r → ∃ f, p (u.map some ++ r) = .error f

namespace Reader

variable {p : Reader α} {f : Fault}

theorem bind_error (h : p s = .error f) (g : α → Reader β) : (p >>= g) s = .error f := by
  simp [bind, StateT.bind, h, Except.bind]

theorem within_error (h : p s = .error f) (segment : Segment) :
    within segment p s = .error { f with path := segment :: f.path } := by
  simp [within, h, Except.mapError]

/-- A refusal inside a list or a record stays one, wherever its fault is placed. -/
theorem closedBy_error (h : p s = .error f) (finish : Reader Unit) :
    ∃ g, closedBy finish p s = .error g := by
  simp only [closedBy, h]
  split
  · exact ⟨_, rfl⟩
  · cases finish f.rest with
    | ok _ => exact ⟨_, rfl⟩
    | error g => exact ⟨_, rfl⟩

end Reader

theorem Refuses.map {p : Reader α} (h : Refuses p u) (g : α → β) :
    Refuses (do return g (← p)) u := by
  refine ⟨h.starts, fun r hr => ?_⟩
  obtain ⟨f, hf⟩ := h.fails r hr
  exact ⟨f, bind_error hf _⟩

/-- A document that is refused is so as a whole text. -/
theorem Refuses.runText {value : Decoder α} (h : Refuses (value roomLimit) u) :
    ∃ message, value.runText u = .error message := by
  obtain ⟨f, hf⟩ := h.fails [] atEnd_nil
  rw [List.append_nil] at hf
  refine ⟨f.message (u.map some), ?_⟩
  simp only [Decoder.runText, Decoder.run]
  rw [hf]
  rfl

/-! ### Lists -/

namespace Reader

variable {item : Reader α}

theorem nextItem_first_error (h : Refuses item u) (hr : AtEnd r) :
    ∃ f, nextItem 0 item (u.map some ++ r) = .error f := by
  obtain ⟨f, hf⟩ := h.fails r hr
  refine ⟨_, within_error (f := f) ?_ _⟩
  rw [show ((0 : Nat) == 0) = true from rfl, bind_eq (hasItem_first h.starts)]
  simp only [if_pos]
  exact bind_error hf _

theorem nextItem_next_error {n : Nat} (hn : n ≠ 0) (h : Refuses item u) (hr : AtEnd r) :
    ∃ f, nextItem n item (some ',' :: (u.map some ++ r)) = .error f := by
  obtain ⟨f, hf⟩ := h.fails r hr
  refine ⟨_, within_error (f := f) ?_ _⟩
  rw [show (n == 0) = false by simpa using hn, bind_eq (hasItem_next h.starts)]
  simp only [if_pos]
  exact bind_error hf _

/-- After some items the loop stops at the first of the others that is refused. -/
theorem itemsFrom_error (h : ∀ u ∈ us, (∃ a, Reads item u a) ∨ Refuses item u)
    (hx : ∃ u ∈ us, Refuses item u) (seen : List α) (hs : seen ≠ []) {fuel : Nat}
    (hf : us.length < fuel) :
    ∃ f, itemsFrom item fuel seen ((us.flatMap (',' :: ·)).map some ++ some ']' :: r) =
      .error f := by
  induction us generalizing seen fuel with
  | nil =>
    obtain ⟨u, hu, -⟩ := hx
    cases hu
  | cons u us ih =>
    obtain ⟨fuel, rfl⟩ : ∃ k, fuel = k + 1 := ⟨fuel - 1, by omega⟩
    have hend := atEnd_parts us (atEnd_bracket r)
    have hlen : seen.length ≠ 0 := by simpa using hs
    rw [itemsFrom]
    simp only [List.flatMap_cons, List.map_append, List.map_cons, List.cons_append,
      List.append_assoc]
    by_cases hu : Refuses item u
    · obtain ⟨f, hf⟩ := nextItem_next_error hlen hu hend
      exact ⟨f, bind_error hf _⟩
    · obtain ⟨a, ha⟩ := (h u List.mem_cons_self).resolve_right hu
      have hx := ((List.exists_mem_cons_iff _ u us).mp hx).resolve_left hu
      rw [bind_eq (nextItem_next hlen ha hend)]
      exact ih (fun v hv => h v (List.mem_cons_of_mem u hv)) hx (a :: seen) (List.cons_ne_nil _ _)
        (by simpa using hf)

theorem items_error (h : ∀ u ∈ us, (∃ a, Reads item u a) ∨ Refuses item u)
    (hx : ∃ u ∈ us, Refuses item u) :
    ∃ f, items item ((join [','] us).map some ++ some ']' :: r) = .error f := by
  cases us with
  | nil =>
    obtain ⟨u, hu, -⟩ := hx
    cases hu
  | cons u us =>
    have hend := atEnd_parts us (atEnd_bracket r)
    have hle := length_le_length_parts us
    rw [join_cons, List.map_append, List.append_assoc]
    simp only [items, List.length_append, List.length_map, List.length_cons]
    rw [itemsFrom, List.length_nil]
    by_cases hu : Refuses item u
    · obtain ⟨f, hf⟩ := nextItem_first_error hu hend
      exact ⟨f, bind_error hf _⟩
    · obtain ⟨a, ha⟩ := (h u List.mem_cons_self).resolve_right hu
      have hx := ((List.exists_mem_cons_iff _ u us).mp hx).resolve_left hu
      rw [bind_eq (nextItem_first ha hend)]
      exact itemsFrom_error (fun v hv => h v (List.mem_cons_of_mem u hv)) hx [a]
        (List.cons_ne_nil _ _) (by omega)

end Reader

namespace Decoder

variable {item : Decoder α}

/-- A list is refused when one of its items is. -/
theorem refuses_list (h : ∀ u ∈ us, (∃ a, Reads (item room) u a) ∨ Refuses (item room) u)
    (hx : ∃ u ∈ us, Refuses (item room) u) :
    Refuses (Decoder.list item (room + 1)) (listText us) where
  starts := ⟨'[', _, rfl, by decide, by decide⟩
  fails r _ := by
    obtain ⟨f, hf⟩ := items_error (r := r) h hx
    simp only [listText, List.cons_append, List.map_cons, List.map_append, List.append_assoc,
      List.map_nil, List.nil_append]
    rw [Decoder.list, listOf, bind_eq (next_eq (by decide))]
    simp only [if_pos]
    rw [bind_eq (skip_eq _)]
    exact closedBy_error hf endList

/-- No list may be entered without room. -/
theorem refuses_list_shut (item : Decoder α) (us : List (List Char)) :
    Refuses (Decoder.list item 0) (listText us) where
  starts := ⟨'[', _, rfl, by decide, by decide⟩
  fails r _ := by
    simp only [listText, List.cons_append, List.map_cons, Decoder.list, shut]
    rw [bind_eq (next_eq (by decide))]
    exact ⟨_, rfl⟩

/-- Null is no number. -/
theorem refuses_float_null (room : Nat) : Refuses (Decoder.float room) "null".toList where
  starts := ⟨'n', _, rfl, by decide, by decide⟩
  fails r _ := by
    have hword : word "null".toList ("null".toList.map some ++ r) = .ok ((), r) := word_eq _
    have hnext : next ("null".toList.map some ++ r) = .ok (some 'n', "null".toList.map some ++ r) :=
      next_head rfl (by decide)
    have hwrong : ∃ f, (wrong "f64" : Reader Numeral) ("null".toList.map some ++ r) = .error f := by
      rw [wrong, bind_eq hnext]
      dsimp only
      rw [if_pos rfl, bind_eq hword]
      exact ⟨_, rfl⟩
    obtain ⟨f, hf⟩ := hwrong
    refine ⟨f, bind_error ?_ _⟩
    rw [numeral, bind_eq hnext]
    dsimp only
    rw [if_neg (by decide)]
    exact hf

end Decoder

end Retrace.Json
