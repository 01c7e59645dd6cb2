/-!
Tables that keep the order in which their keys came in. A key that comes again keeps its place and
takes the new value.
-/
namespace Retrace

variable {α β : Type}

/-- A table from names to values, in the order of its rows. No name has two of them. -/
@[ext]
structure Table (α : Type) where
  rows : List (String × α)
  distinct : (rows.map Prod.fst).Nodup
  deriving DecidableEq, Repr

namespace Table

/-- Puts a value under a name into some rows. -/
def put (name : String) (a : α) : List (String × α) → List (String × α)
  | [] => [(name, a)]
  | (k, b) :: rows => if k = name then (k, a) :: rows else (k, b) :: put name a rows

theorem map_fst_put (name : String) (a : α) (rows : List (String × α)) :
    (put name a rows).map Prod.fst =
      if name ∈ rows.map Prod.fst then rows.map Prod.fst else rows.map Prod.fst ++ [name] := by
  induction rows with
  | nil => simp [put]
  | cons row rows ih =>
    obtain ⟨j, b⟩ := row
    by_cases hj : j = name
    · simp [put, hj]
    · have hn : name ≠ j := Ne.symm hj
      simp only [put, if_neg hj, List.map_cons, ih, List.mem_cons, hn, false_or]
      split <;> simp

theorem nodup_put {rows : List (String × α)} (h : (rows.map Prod.fst).Nodup) (name : String)
    (a : α) : ((put name a rows).map Prod.fst).Nodup := by
  rw [map_fst_put]
  split
  · exact h
  · rename_i hnew
    refine List.nodup_append.mpr ⟨h, by simp, fun k hk j hj he => hnew ?_⟩
    exact List.mem_singleton.mp hj ▸ he ▸ hk

def empty : Table α := ⟨[], List.nodup_nil⟩

def insert (t : Table α) (name : String) (a : α) : Table α :=
  ⟨put name a t.rows, nodup_put t.distinct name a⟩

def get? (t : Table α) (name : String) : Option α :=
  (t.rows.find? fun row => row.1 == name).map (·.2)

def keys (t : Table α) : List String := t.rows.map (·.1)

/-- The table that results from putting in rows one after another. -/
def ofRows (rows : List (String × α)) : Table α :=
  rows.foldl (fun t row => t.insert row.1 row.2) empty

def filter (p : String → Bool) (t : Table α) : Table α where
  rows := t.rows.filter fun row => p row.1
  distinct := t.distinct.sublist (List.filter_sublist.map Prod.fst)

def map (f : α → β) (t : Table α) : Table β where
  rows := t.rows.map fun row => (row.1, f row.2)
  distinct := by
    rw [List.map_map]
    exact t.distinct

variable {t : Table α} {name k : String} {a : α}

theorem rows_insert : (t.insert name a).rows = put name a t.rows := rfl

theorem rows_filter (p : String → Bool) :
    (t.filter p).rows = t.rows.filter fun row => p row.1 := rfl

theorem rows_map (f : α → β) :
    (t.map f).rows = t.rows.map fun row => (row.1, f row.2) := rfl

theorem find_put_self (rows : List (String × α)) :
    (put name a rows).find? (fun row => row.1 == name) = some (name, a) := by
  induction rows with
  | nil => simp [put]
  | cons row rows ih =>
    obtain ⟨k, b⟩ := row
    by_cases h : k = name <;> simp [put, h, ih]

theorem find_put_of_ne (rows : List (String × α)) (h : k ≠ name) :
    (put name a rows).find? (fun row => row.1 == k) = rows.find? (fun row => row.1 == k) := by
  induction rows with
  | nil => simp [put, Ne.symm h]
  | cons row rows ih =>
    obtain ⟨j, b⟩ := row
    by_cases hj : j = name
    · subst hj; simp [put, Ne.symm h]
    · by_cases hk : j = k
      · subst hk; simp [put, hj]
      · simp [put, hj, hk, ih]

@[simp] theorem get?_insert_self : (t.insert name a).get? name = some a := by
  simp [get?, insert, find_put_self]

theorem get?_insert_of_ne (h : k ≠ name) : (t.insert name a).get? k = t.get? k := by
  simp [get?, insert, find_put_of_ne _ h]

end Table

end Retrace
