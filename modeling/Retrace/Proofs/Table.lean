import Mathlib.Data.List.Induction
import Mathlib.Data.List.Nodup
import Retrace.Table

/-! Tables as their rows came in: which names they have, in which order, and with which values. -/
namespace Retrace.Table

variable {α : Type}

theorem ofRows_append_singleton (rows : List (String × α)) (row : String × α) :
    ofRows (rows ++ [row]) = (ofRows rows).insert row.1 row.2 := by
  simp [ofRows]

/-- A name that comes again keeps the place where it came first. -/
theorem keys_ofRows (rows : List (String × α)) :
    (ofRows rows).keys = (rows.map Prod.fst).eraseDups := by
  induction rows using List.reverseRecOn with
  | nil => rfl
  | append_singleton rows row ih =>
    have hk := map_fst_put row.1 row.2 (ofRows rows).rows
    rw [show (ofRows rows).rows.map Prod.fst = _ from ih] at hk
    rw [ofRows_append_singleton, List.map_append, List.eraseDups_append]
    simp only [keys, insert]
    rw [hk]
    by_cases hm : row.1 ∈ rows.map Prod.fst
    · simp [List.mem_eraseDups, hm, List.removeAll]
    · simp [List.mem_eraseDups, hm, List.removeAll, List.eraseDups_cons]

/-- A name that comes again takes the value that came last. -/
theorem get?_ofRows (rows : List (String × α)) (k : String) :
    (ofRows rows).get? k = (rows.reverse.find? fun row => row.1 == k).map Prod.snd := by
  induction rows using List.reverseRecOn with
  | nil => rfl
  | append_singleton rows row ih =>
    rw [ofRows_append_singleton, List.reverse_append]
    by_cases h : row.1 = k
    · subst h
      simp
    · rw [get?_insert_of_ne (Ne.symm h), ih]
      simp [h]

theorem mem_put {name : String} {a : α} {rows : List (String × α)} {row : String × α}
    (h : row ∈ put name a rows) : row = (name, a) ∨ row ∈ rows := by
  induction rows with
  | nil => exact Or.inl (by simpa [put] using h)
  | cons r rows ih =>
    obtain ⟨j, b⟩ := r
    by_cases hj : j = name
    · subst hj
      rw [put, if_pos rfl] at h
      rcases List.mem_cons.mp h with rfl | h
      · exact Or.inl rfl
      · exact Or.inr (by simp [h])
    · rw [put, if_neg hj] at h
      rcases List.mem_cons.mp h with rfl | h
      · exact Or.inr (by simp)
      · rcases ih h with rfl | h
        · exact Or.inl rfl
        · exact Or.inr (by simp [h])

/-- A table has no rows but those that were put in. -/
theorem mem_ofRows {rows : List (String × α)} {row : String × α} (h : row ∈ (ofRows rows).rows) :
    row ∈ rows := by
  induction rows using List.reverseRecOn with
  | nil => simp [ofRows, empty] at h
  | append_singleton rows r ih =>
    rw [ofRows_append_singleton] at h
    rcases mem_put h with rfl | h
    · simp
    · simp [ih h]

/-- Names that come with a value each of their own make a row each. -/
theorem rows_ofRows_map (names : List String) (f : String → α) :
    (ofRows (names.map fun name => (name, f name))).rows =
      names.eraseDups.map fun name => (name, f name) := by
  have hkeys := keys_ofRows (names.map fun name => (name, f name))
  have hsnd : ∀ row ∈ (ofRows (names.map fun name => (name, f name))).rows,
      row = (row.1, f row.1) := by
    intro row hrow
    obtain ⟨name, _, rfl⟩ := List.mem_map.mp (mem_ofRows hrow)
    rfl
  rw [List.map_map, show Prod.fst ∘ (fun name => (name, f name)) = id from rfl, List.map_id] at hkeys
  rw [← hkeys, keys, List.map_map]
  exact (List.map_id _).symm.trans (List.map_congr_left hsnd)

/-- Names that all come with one value make a row each. -/
theorem rows_ofRows_const (names : List String) (a : α) :
    (ofRows (names.map fun name => (name, a))).rows =
      names.eraseDups.map fun name => (name, a) :=
  rows_ofRows_map names fun _ => a

theorem put_of_not_mem {name : String} {a : α} {rows : List (String × α)}
    (h : name ∉ rows.map Prod.fst) : put name a rows = rows ++ [(name, a)] := by
  induction rows with
  | nil => rfl
  | cons row rows ih =>
    obtain ⟨j, b⟩ := row
    rw [List.map_cons, List.mem_cons, not_or] at h
    rw [put, if_neg (Ne.symm h.1), ih h.2, List.cons_append]

/-- Rows with distinct names stay as they came in. -/
theorem rows_ofRows {rows : List (String × α)} (h : (rows.map Prod.fst).Nodup) :
    (ofRows rows).rows = rows := by
  induction rows using List.reverseRecOn with
  | nil => rfl
  | append_singleton rows row ih =>
    rw [List.map_append, List.nodup_append] at h
    obtain ⟨hd, -, hnew⟩ := h
    have hrow : row.1 ∉ rows.map Prod.fst := fun hm => hnew row.1 hm row.1 (by simp) rfl
    rw [ofRows_append_singleton, rows_insert, ih hd, put_of_not_mem hrow]

theorem ofRows_rows (t : Table α) : ofRows t.rows = t := Table.ext (rows_ofRows t.distinct)

theorem nodup_keys (t : Table α) : t.keys.Nodup := t.distinct

theorem get?_eq_none_iff {t : Table α} {name : String} : t.get? name = none ↔ name ∉ t.keys := by
  simp only [get?, Option.map_eq_none_iff, List.find?_eq_none, keys, List.mem_map, not_exists,
    not_and, beq_iff_eq]

/-- A name has the value of its row. -/
theorem get?_eq_some_iff {t : Table α} {name : String} {a : α} :
    t.get? name = some a ↔ (name, a) ∈ t.rows := by
  constructor
  · intro hg
    obtain ⟨row, hfind, rfl⟩ := Option.map_eq_some_iff.mp hg
    obtain rfl : row.1 = name := by simpa using List.find?_some hfind
    exact List.mem_of_find?_eq_some hfind
  · intro hm
    cases hg : t.get? name with
    | none => exact absurd (List.mem_map_of_mem (f := Prod.fst) hm) (get?_eq_none_iff.mp hg)
    | some b =>
      obtain ⟨row, hfind, rfl⟩ := Option.map_eq_some_iff.mp hg
      have hname : row.1 = name := by simpa using List.find?_some hfind
      have hrow :=
        List.inj_on_of_nodup_map t.distinct hm (List.mem_of_find?_eq_some hfind) hname.symm
      rw [← hrow]

end Retrace.Table
