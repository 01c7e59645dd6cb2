import Retrace.Proofs.Json.Parts

/-! Records are read as they are written: field by field into a draft that makes the record. -/
namespace Retrace.Json

open Retrace.Text Reader

variable {α β : Type} {s t r : Input} {a b : α}

namespace Reader

theorem map_fieldText (name : String) (u : List Char) : (fieldText (name, u)).map some ++ r =
    some '"' :: ((name.toList.flatMap (Json.escape recordLetters)).map some ++
      some '"' :: some ':' :: (u.map some ++ r)) := by
  rw [fieldText, List.map_append, List.append_assoc, map_quoteWith]
  rfl

theorem fieldName_first (name : String) (u : List Char) :
    fieldName true ((fieldText (name, u)).map some ++ r) =
      .ok (some name, some ':' :: (u.map some ++ r)) := by
  rw [map_fieldText, fieldName, bind_eq (next_eq (by decide))]
  dsimp only
  rw [if_neg (by decide), if_pos rfl, if_pos rfl, bind_eq (skip_eq _),
    bind_eq (text_flatMap sound_recordLetters _), String.ofList_toList]
  rfl

theorem fieldName_next (name : String) (u : List Char) :
    fieldName false (some ',' :: ((fieldText (name, u)).map some ++ r)) =
      .ok (some name, some ':' :: (u.map some ++ r)) := by
  rw [map_fieldText, fieldName, bind_eq (next_eq (by decide))]
  dsimp only
  rw [if_neg (by decide), if_neg (by decide), if_pos rfl, bind_eq (skip_eq _),
    bind_eq (next_eq (by decide))]
  dsimp only
  rw [if_pos rfl, bind_eq (skip_eq _), bind_eq (text_flatMap sound_recordLetters _),
    String.ofList_toList]
  rfl

theorem fieldName_over (isFirst : Bool) :
    fieldName isFirst (closing :: r) = .ok (none, closing :: r) := by
  rw [fieldName, bind_eq (next_eq (by decide))]
  rfl

theorem colon_eq : colon (some ':' :: r) = .ok ((), r) := by
  rw [colon, bind_eq (next_eq (by decide))]
  rfl

theorem fieldValue_eq {p : Reader α} {name : String} {u : List Char} (h : Reads p u a)
    (hr : AtEnd r) : fieldValue name p (some ':' :: (u.map some ++ r)) = .ok (a, r) := by
  apply within_eq
  rw [bind_eq colon_eq]
  exact h.takes r hr

/-- Reading fields one after another changes a value step by step. -/
inductive Fills (field : α → String → Reader α) : List (String × List Char) → α → α → Prop
  | nil {a : α} : Fills field [] a a
  | cons {name : String} {u : List Char} {fs : List (String × List Char)} {a b c : α} :
    (∀ r, AtEnd r → field a name (some ':' :: (u.map some ++ r)) = .ok (b, r)) →
      Fills field fs b c → Fills field ((name, u) :: fs) a c

variable {field : α → String → Reader α} {fs : List (String × List Char)}

/-- After a first field the loop reads the others, each behind its comma. -/
theorem foldFieldsFrom_eq (h : Fills field fs a b) {fuel : Nat} (hf : fs.length < fuel) :
    foldFieldsFrom field fuel false a
        (((fs.map fieldText).flatMap (',' :: ·)).map some ++ closing :: r) =
      .ok (b, closing :: r) := by
  induction h generalizing fuel with
  | nil =>
    obtain ⟨fuel, rfl⟩ : ∃ k, fuel = k + 1 := ⟨fuel - 1, by omega⟩
    rw [foldFieldsFrom]
    exact bind_eq (fieldName_over _)
  | cons h1 _ ih =>
    obtain ⟨fuel, rfl⟩ : ∃ k, fuel = k + 1 := ⟨fuel - 1, by omega⟩
    rw [foldFieldsFrom]
    simp only [List.map_cons, List.flatMap_cons, List.cons_append, List.map_append,
      List.append_assoc]
    rw [bind_eq (fieldName_next _ _)]
    dsimp only
    rw [bind_eq (h1 _ (atEnd_parts _ (atEnd_closing _)))]
    exact ih (by simpa using hf)

/-- The fields of a record are gone through up to the closing mark. -/
theorem foldFields_eq (h : Fills field fs a b) :
    foldFields field a ((join [','] (fs.map fieldText)).map some ++ closing :: r) =
      .ok (b, closing :: r) := by
  cases h with
  | nil =>
    simp only [List.map_nil, join, List.nil_append, foldFields, List.length_cons]
    rw [foldFieldsFrom]
    exact bind_eq (fieldName_over _)
  | @cons name u fs _ b' _ h1 h2 =>
    have hle := length_le_length_parts (fs.map fieldText)
    rw [List.length_map] at hle
    rw [List.map_cons, join_cons, List.map_append, List.append_assoc]
    simp only [foldFields, List.length_append, List.length_map, List.length_cons]
    rw [foldFieldsFrom, bind_eq (fieldName_first _ _)]
    dsimp only
    rw [bind_eq (h1 _ (atEnd_parts _ (atEnd_closing _)))]
    exact foldFieldsFrom_eq h2 (by omega)

end Reader

theorem map_recordText (fs : List (String × List Char)) :
    (recordText fs).map some ++ r =
      opening :: ((join [','] (fs.map fieldText)).map some ++ closing :: r) := by
  simp [recordText, opening, closing]

theorem starts_recordText (fs : List (String × List Char)) : Starts (recordText fs) :=
  ⟨Char.ofNat 123, _, rfl, by decide, by decide⟩

namespace Record

variable {σ τ : Type} {room : Nat} {fs gs : List (String × List Char)} {fields : List (Field σ)}
  {others : List (Field τ)}

/-- The written fields, read one after another, make a draft out of a draft. -/
inductive Drafts (room : Nat) (fields : List (Field σ)) :
    List (String × List Char) → σ → σ → Prop
  | nil {d : σ} : Drafts room fields [] d d
  | cons {name : String} {u : List Char} {fs : List (String × List Char)} {d d' : σ}
    (f : Field σ) (put : σ → σ) : fields.find? (fun f => f.name == name) = some f →
      f.taken d = false → Reads (f.read room) u put → Drafts room fields fs (put d) d' →
      Drafts room fields ((name, u) :: fs) d d'

theorem Drafts.append {d d' d'' : σ} (h : Drafts room fields fs d d')
    (hg : Drafts room fields gs d' d'') : Drafts room fields (fs ++ gs) d d'' := by
  induction h with
  | nil => exact hg
  | cons f put hf ht hr _ ih => exact .cons f put hf ht hr (ih hg)

/-- A field of the first of two groups fills the first half of a draft. -/
theorem Drafts.left {d d' : σ} (h : Drafts room fields fs d d') (e : τ) :
    Drafts room (fields.map Field.left ++ others.map Field.right) fs (d, e) (d', e) := by
  induction h with
  | nil => exact .nil
  | cons f put hf ht hr _ ih =>
    refine .cons f.left (Prod.map put id) ?_ ht ?_ ih
    · simp only [List.find?_append, List.find?_map, Function.comp_def, Field.left, hf]
      rfl
    · exact ⟨hr.starts, fun r h => bind_eq (hr.takes r h)⟩

/-- A field of the second of two groups fills the second half, if the first has not its name. -/
theorem Drafts.right {e e' : τ} (h : Drafts room others gs e e') (d : σ)
    (hn : ∀ g ∈ gs, g.1 ∉ fields.map Field.name) :
    Drafts room (fields.map Field.left ++ others.map Field.right) gs (d, e) (d, e') := by
  induction h with
  | nil => exact .nil
  | @cons name u gs e e' f put hf ht hr _ ih =>
    refine .cons f.right (Prod.map id put) ?_ ht ?_
      (ih fun g hg => hn g (by simp [hg]))
    · have hl : fields.find? (fun f => f.name == name) = none := by
        simp only [List.find?_eq_none, beq_iff_eq]
        intro g hg he
        exact hn (name, u) (by simp) (List.mem_map.mpr ⟨g, hg, he⟩)
      simp only [List.find?_append, List.find?_map, Function.comp_def, Field.left, Field.right,
        hf, hl]
      rfl
    · exact ⟨hr.starts, fun r h => bind_eq (hr.takes r h)⟩

/-- The loop over the fields of a record follows its drafts. -/
theorem Drafts.fills {q : Record α} {d d' : q.Draft} (h : Drafts room q.fields fs d d') :
    Fills (q.readField room) fs d d' := by
  induction h with
  | nil => exact .nil
  | cons f put hf ht hr _ ih =>
    refine .cons (fun r hend => ?_) ih
    simp only [readField, hf, ht, Bool.false_eq_true, if_false]
    exact bind_eq (fieldValue_eq hr hend)

def names (q : Record α) : List String := q.fields.map Field.name

@[simp]
theorem names_single (name : String) (optional : Bool) (value : Decoder α)
    (missing : Except Cause α) : (single name optional value missing).names = [name] := rfl

@[simp]
theorem names_required (name : String) (value : Decoder α) :
    (required name value).names = [name] := names_single name _ value _

@[simp]
theorem names_possible (name : String) (value : Decoder α) :
    (possible name value).names = [name] := names_single name _ value.option _

@[simp]
theorem names_withDefault (name : String) (value : Decoder α) (a : α) :
    (withDefault name value a).names = [name] := names_single name _ value _

@[simp]
theorem names_map (f : α → β) (q : Record α) : (q.map f).names = q.names := rfl

@[simp]
theorem names_apply (q : Record (α → β)) (q' : Record α) :
    (q.apply q').names = q.names ++ q'.names := by
  simp [names, apply, map, both, Field.left, Field.right, Function.comp_def]

/-- The written fields of a record make a value when they are read in their order. -/
def Makes (q : Record α) (room : Nat) (fs : List (String × List Char)) (a : α) : Prop :=
  ∃ d, Drafts room q.fields fs q.blank d ∧ q.finish d = .ok a

theorem makes_single {name : String} {optional : Bool} {value : Decoder α} {u : List Char}
    {missing : Except Cause α} (h : Reads (value room) u a) :
    (single name optional value missing).Makes room [(name, u)] a := by
  refine ⟨some a, .cons _ (fun _ => some a) (List.find?_cons_of_pos (by simp)) rfl
    ⟨h.starts, fun r hr => bind_eq (h.takes r hr)⟩ .nil, rfl⟩

theorem makes_absent {name : String} {optional : Bool} {value : Decoder α}
    {missing : Except Cause α} (h : missing = .ok a) :
    (single name optional value missing).Makes room [] a :=
  ⟨none, .nil, h⟩

theorem makes_map {q : Record α} (f : α → β) (h : q.Makes room fs a) :
    (q.map f).Makes room fs (f a) := by
  obtain ⟨d, hd, hf⟩ := h
  refine ⟨d, hd, ?_⟩
  simp [map, hf, Except.map]

theorem makes_apply {q : Record (α → β)} {q' : Record α} {f : α → β} (h : q.Makes room fs f)
    (h' : q'.Makes room gs a) (hn : ∀ g ∈ gs, g.1 ∉ q.names) :
    (q.apply q').Makes room (fs ++ gs) (f a) := by
  obtain ⟨d, hd, hf⟩ := h
  obtain ⟨e, he, hg⟩ := h'
  refine makes_map (q := q.both q') (a := (f, a)) (fun p => p.1 p.2)
    ⟨(d, e), (hd.left _).append (he.right d hn), ?_⟩
  simp [both, hf, hg, bind, Except.bind, pure, Except.pure]

/-- A record is read as it is written. -/
theorem Makes.reads {q : Record α} (h : q.Makes room fs a) (name : String) :
    Reads (q.read name (room + 1)) (recordText fs) a where
  starts := starts_recordText fs
  takes r _ := by
    obtain ⟨d, hd, hf⟩ := h
    rw [map_recordText, read, bind_eq (next_eq (by decide))]
    dsimp only
    rw [if_pos (Or.inr rfl), bind_eq (skip_eq _), if_pos rfl]
    refine closedBy_eq ?_ endRecord_eq
    rw [bind_eq (foldFields_eq hd.fills), hf]
    rfl

end Record

end Retrace.Json
