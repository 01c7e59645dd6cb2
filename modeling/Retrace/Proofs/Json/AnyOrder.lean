import Retrace.Proofs.Json.Records
import Retrace.Proofs.Json.Skipping

/-! Records are read from their fields in any order, unknown ones among them, with blanks between all
parts. -/
namespace Retrace.Json

open Retrace.Text Reader

variable {α β : Type} {u v w g : List Char} {parts : List (List Char)} {s r t : Input} {d : Json}
  {ds : List Json} {a b : α} {as : List α} {name : String} {room n : Nat}

/-- The reader takes whatever stands for a document for a value. -/
def Takes (p : Reader α) (d : Json) (a : α) : Prop :=
  ∀ g u r, Gap g → d.SpelledBy u → AtEnd r → p (g.map some ++ (u.map some ++ r)) = .ok (a, r)

theorem Lenient.takes {p : Reader α} (hp : Lenient p)
    (h : ∀ u r, d.SpelledBy u → AtEnd r → p (u.map some ++ r) = .ok (a, r)) : Takes p d a := by
  intro g u r hg hu hr
  rw [hp g _ hg, h u r hu hr]

theorem Takes.map {p : Reader α} (h : Takes p d a) (f : α → β) :
    Takes (do return f (← p)) d (f a) := by
  intro g u r hg hu hr
  exact bind_eq (h g u r hg hu hr)

theorem takes_skipValue (d : Json) : Takes skipValue d () :=
  fun _ _ _ hg hu hr => skipValue_spelled hg hu hr

/-! ### Scalars -/

namespace Decoder

theorem lenient_textAs (wanted : String) (room : Nat) : Lenient (textAs wanted room) :=
  lenient_next.bind _

theorem lenient_numeral (wanted : String) (room : Nat) : Lenient (numeral wanted room) :=
  lenient_next.bind _

theorem lenient_word64 (wanted : String) (room : Nat) : Lenient (word64 wanted room) :=
  ((lenient_numeral wanted room).bind _).settled.bind _

theorem takes_textAs (wanted : String) (room : Nat) (s : String) :
    Takes (textAs wanted room) (.text s) s := by
  refine (lenient_textAs wanted room).takes fun u r hu _ => ?_
  obtain ⟨parts, hparts, rfl⟩ := hu
  have h := text_charTexts (r := r) hparts
  rw [String.ofList_toList] at h
  rw [map_quoted, textAs, bind_eq (next_eq (by decide)), if_pos rfl, bind_eq (skip_eq _), h]

theorem takes_word64 (hn : n ≤ 0xFFFFFFFFFFFFFFFF) (wanted : String) (room : Nat) :
    Takes (word64 wanted room) (.nat n) n := by
  refine (lenient_word64 wanted room).takes fun u r hu hr => ?_
  obtain ⟨rfl, -⟩ : u = (toString n).toList ∧ _ := hu
  exact (reads_word64 hn wanted room).takes r hr

theorem takes_truth (b : Bool) (room : Nat) : Takes (truth room) (.truth b) b := by
  refine Lenient.takes (lenient_next.bind _) fun u r hu hr => ?_
  obtain rfl : u = (if b then "true" else "false").toList := hu
  exact (reads_truth b room).takes r hr

theorem takes_null (value : Decoder α) (room : Nat) : Takes (option value room) .null none := by
  refine Lenient.takes (lenient_next.bind _) fun u r hu hr => ?_
  obtain rfl : u = "null".toList := hu
  rw [option, bind_eq (next_head (p := some 'n') rfl (by decide))]
  exact bind_eq (word_eq "null".toList)

theorem takes_some {value : Decoder α} (h : Takes (value room) d a) (hd : d ≠ .null) :
    Takes (option value room) d (some a) := by
  refine Lenient.takes (lenient_next.bind _) fun u r hu hr => ?_
  have hvalue := h [] u r gap_nil hu hr
  obtain ⟨c, v, rfl, hc⟩ := hu.head
  have hn : c ≠ 'n' := by
    rintro rfl
    cases d with
    | null => exact hd rfl
    | truth b => cases b <;> exact absurd hc (by simp [Leads])
    | number t => rcases hc with hc | hc <;> exact absurd hc (by decide)
    | text s => exact absurd hc (by simp [Leads])
    | list items => exact absurd hc (by simp [Leads])
    | record fields => exact absurd hc (by simp [Leads])
  simp only [List.map_nil, List.nil_append, List.map_cons, List.cons_append] at hvalue ⊢
  rw [option, bind_eq (next_eq hc.not_gap.1)]
  simp only [Option.some.injEq, hn, if_false]
  rw [bind_eq hvalue]
  rfl

end Decoder

/-! ### Lists -/

theorem SpelledItems.length_eq (h : SpelledItems ds parts) : ds.length = parts.length := by
  induction ds generalizing parts with
  | nil =>
    obtain rfl : parts = [] := h
    rfl
  | cons d ds ih =>
    obtain ⟨v, rest, -, hrest, rfl⟩ := h
    exact congrArg (· + 1) (ih hrest)

theorem SpelledFields.length_eq {fs : List (String × Json)} (h : SpelledFields fs parts) :
    fs.length = parts.length := by
  induction fs generalizing parts with
  | nil =>
    obtain rfl : parts = [] := h
    rfl
  | cons f fs ih =>
    obtain ⟨w, v, rest, -, -, hrest, rfl⟩ := h
    exact congrArg (· + 1) (ih hrest)

namespace Reader

/-- There are no more parts than pieces up to the mark that closes them. -/
theorem length_le_length_between (isFirst : Prop) [Decidable isFirst] (parts : List (List Char))
    (p : Piece) (r : Input) : parts.length ≤
      ((if isFirst then join [','] parts else parts.flatMap (',' :: ·)).map some ++ p :: r).length := by
  cases parts with
  | nil => exact Nat.zero_le _
  | cons v rest =>
    have hle := length_le_length_parts rest
    split <;> simp only [join_cons, List.flatMap_cons, List.length_append, List.length_map,
      List.length_cons, List.cons_append] <;> omega

theorem lenient_hasItem (isFirst : Bool) : Lenient (hasItem isFirst) := lenient_next.bind _

/-- The state in a list after `n` items, before the others. -/
def BeforeItems (n : Nat) (ds : List Json) (r s : Input) : Prop :=
  ∃ parts g, SpelledItems ds parts ∧ Gap g ∧
    s = g.map some ++
      ((if n = 0 then join [','] parts else parts.flatMap (',' :: ·)).map some ++ some ']' :: r)

theorem BeforeItems.enclosed (hparts : SpelledItems ds parts) (hu : Enclosed '[' parts ']' u)
    (r : Input) : ∃ s, u.map some ++ r = some '[' :: s ∧ BeforeItems 0 ds r s := by
  rcases hu with ⟨-, rfl⟩ | ⟨g, hg, rfl, rfl⟩
  · exact ⟨(join [','] parts).map some ++ some ']' :: r, by simp, parts, [], hparts, gap_nil,
      by simp⟩
  · exact ⟨g.map some ++ some ']' :: r, by simp, [], g, hparts, hg, by simp [join]⟩

theorem BeforeItems.over (h : BeforeItems n [] r s) (isFirst : Bool) :
    hasItem isFirst s = .ok (false, some ']' :: r) := by
  obtain ⟨parts, g, rfl, hg, rfl⟩ := h
  have hnone : (if n = 0 then join [','] [] else [].flatMap (',' :: ·)) = [] := by
    split <;> rfl
  rw [lenient_hasItem isFirst g _ hg, hnone, List.map_nil, List.nil_append, hasItem_over]

theorem beforeItems_over (hn : n ≠ 0) (r : Input) : BeforeItems n [] r (some ']' :: r) :=
  ⟨[], [], rfl, gap_nil, by simp [hn]⟩

/-- The next item stands where the comma before it has been passed over. -/
theorem BeforeItems.step (h : BeforeItems n (d :: ds) r s) : ∃ u t,
    hasItem (n == 0) s = .ok (true, u.map some ++ t) ∧ d.SpelledBy u ∧ AtEnd t ∧
      BeforeItems (n + 1) ds r t := by
  obtain ⟨parts, g, ⟨v, rest, ⟨e, u, e', he, he', hu, rfl⟩, hrest, rfl⟩, hg, rfl⟩ := h
  have hend := atEnd_gap he' (atEnd_parts rest (atEnd_bracket r))
  refine ⟨u, e'.map some ++ ((rest.flatMap (',' :: ·)).map some ++ some ']' :: r), ?_, hu, hend,
    rest, e', hrest, he', by simp⟩
  rw [lenient_hasItem _ g _ hg]
  by_cases hn : n = 0
  · subst hn
    rw [if_pos rfl, join_cons]
    simp only [List.append_assoc, List.map_append]
    rw [show ((0 : Nat) == 0) = true from rfl, lenient_hasItem _ e _ he, hasItem_first hu.starts]
  · rw [if_neg hn, show (n == 0) = false by simpa using hn]
    simp only [List.flatMap_cons, List.cons_append, List.map_cons, List.append_assoc,
      List.map_append]
    obtain ⟨c, w, rfl, hc⟩ := hu.head
    rw [List.map_cons, List.cons_append, hasItem, bind_eq (next_eq (by decide))]
    dsimp only
    rw [if_neg (by decide), if_neg (by decide), if_pos rfl, bind_eq (skip_eq _),
      bind_eq ((lenient_next e _ he).trans (next_eq hc.not_gap.1))]
    simp [hc.not_gap.2, pure_eq]

theorem BeforeItems.length_le (h : BeforeItems n ds r s) : ds.length ≤ s.length := by
  obtain ⟨parts, g, hparts, -, rfl⟩ := h
  have hle := length_le_length_between (n = 0) parts (some ']') r
  rw [hparts.length_eq, List.length_append]
  omega

theorem nextItem_takes {item : Reader α} {w : List Char} {n : Nat}
    (hs : hasItem (n == 0) s = .ok (true, w.map some ++ t)) (hw : d.SpelledBy w) (ht : AtEnd t)
    (ha : Takes item d a) : nextItem n item s = .ok (some a, t) := by
  apply within_eq
  rw [bind_eq hs, if_pos rfl]
  exact bind_eq (ha [] w t gap_nil hw ht)

/-- The items of a list are gone through up to the closing mark. -/
theorem itemsFrom_takes {item : Reader α} (h : List.Forall₂ (Takes item) ds as) (seen : List α)
    (hs : BeforeItems seen.length ds r s) {fuel : Nat} (hf : ds.length < fuel) :
    itemsFrom item fuel seen s = .ok (seen.reverse ++ as, some ']' :: r) := by
  induction h generalizing seen s fuel with
  | nil =>
    obtain ⟨fuel, rfl⟩ : ∃ k, fuel = k + 1 := ⟨fuel - 1, by omega⟩
    have hover : nextItem seen.length item s = .ok (none, some ']' :: r) :=
      within_eq (bind_eq (hs.over _))
    rw [itemsFrom, bind_eq hover]
    simp [pure_eq]
  | @cons d a ds as ha _ ih =>
    obtain ⟨fuel, rfl⟩ : ∃ k, fuel = k + 1 := ⟨fuel - 1, by omega⟩
    obtain ⟨u, t, hitem, hu, ht, hrest⟩ := hs.step
    rw [itemsFrom, bind_eq (nextItem_takes hitem hu ht ha)]
    dsimp only
    rw [ih (a :: seen) hrest (by simpa using hf)]
    simp

end Reader

theorem takes_list {item : Decoder α} (h : List.Forall₂ (Takes (item room)) ds as) :
    Takes (Decoder.list item (room + 1)) (.list ds) as := by
  refine Lenient.takes (lenient_next.bind _) fun u r hu _ => ?_
  obtain ⟨parts, hparts, hu⟩ := hu
  obtain ⟨s, hs, hitems⟩ := BeforeItems.enclosed hparts hu r
  have hle := hitems.length_le
  rw [hs, Decoder.list, listOf, bind_eq (next_eq (by decide)), if_pos rfl, bind_eq (skip_eq _)]
  exact closedBy_eq (itemsFrom_takes h [] hitems (by omega)) endList_eq

/-! ### Fields -/

namespace Reader

theorem lenient_fieldName (isFirst : Bool) : Lenient (fieldName isFirst) := lenient_next.bind _

theorem lenient_colon : Lenient colon := lenient_next.bind _

/-- The state before the value of a field, its name having been read, and the state behind it. -/
inductive AtValue (d : Json) : Input → Input → Prop
  | mk {g g' u : List Char} {t : Input} (hg : Gap g) (hg' : Gap g') (hu : d.SpelledBy u)
    (ht : AtEnd t) : AtValue d (g.map some ++ some ':' :: (g'.map some ++ (u.map some ++ t))) t

/-- The state in a record before its first field, or before the others. -/
def BeforeFields (isFirst : Bool) (fs : List (String × Json)) (r s : Input) : Prop :=
  ∃ parts g, SpelledFields fs parts ∧ Gap g ∧
    s = g.map some ++
      ((if isFirst then join [','] parts else parts.flatMap (',' :: ·)).map some ++ closing :: r)

variable {fs : List (String × Json)} {isFirst : Bool}

theorem BeforeFields.enclosed (hparts : SpelledFields fs parts)
    (hu : Enclosed (Char.ofNat 123) parts (Char.ofNat 125) u) (r : Input) :
    ∃ s, u.map some ++ r = opening :: s ∧ BeforeFields true fs r s := by
  rcases hu with ⟨-, rfl⟩ | ⟨g, hg, rfl, rfl⟩
  · exact ⟨(join [','] parts).map some ++ closing :: r, by simp [opening, closing], parts, [],
      hparts, gap_nil, by simp⟩
  · exact ⟨g.map some ++ closing :: r, by simp [opening, closing], [], g, hparts, hg,
      by simp [join]⟩

theorem BeforeFields.over (h : BeforeFields isFirst [] r s) :
    fieldName isFirst s = .ok (none, closing :: r) := by
  obtain ⟨parts, g, rfl, hg, rfl⟩ := h
  have hnone : (if isFirst then join [','] [] else [].flatMap (',' :: ·)) = [] := by
    split <;> rfl
  rw [lenient_fieldName isFirst g _ hg, hnone, List.map_nil, List.nil_append, fieldName_over]

/-- The name of the next field is read up to where its value stands. -/
theorem BeforeFields.step (h : BeforeFields isFirst ((name, d) :: fs) r s) : ∃ s' t,
    fieldName isFirst s = .ok (some name, s') ∧ AtValue d s' t ∧ BeforeFields false fs r t := by
  obtain ⟨parts, g, ⟨w, v, rest, ⟨e, q, e', he, he', ⟨ps, hps, rfl⟩, rfl⟩,
    ⟨b, u, b', hb, hb', hu, rfl⟩, hrest, rfl⟩, hg, rfl⟩ := h
  have hend := atEnd_gap hb' (atEnd_parts rest (atEnd_closing r))
  refine ⟨_, b'.map some ++ ((rest.flatMap (',' :: ·)).map some ++ closing :: r), ?_,
    .mk he' hb hu hend, rest, b', hrest, hb', by simp⟩
  have htext (s : Input) := text_charTexts (r := s) hps
  simp only [String.ofList_toList] at htext
  rw [lenient_fieldName _ g _ hg]
  cases isFirst with
  | true =>
    rw [if_pos rfl, join_cons]
    simp only [List.append_assoc, List.map_append, List.cons_append, List.map_cons,
      List.nil_append]
    rw [lenient_fieldName _ e _ he, fieldName, bind_eq (next_eq (by decide))]
    dsimp only
    rw [if_neg (by decide), if_pos rfl, if_pos rfl, bind_eq (skip_eq _), bind_eq (htext _)]
    rfl
  | false =>
    simp only [Bool.false_eq_true, if_false, List.flatMap_cons, List.append_assoc,
      List.map_append, List.cons_append, List.map_cons, List.nil_append]
    rw [fieldName, bind_eq (next_eq (by decide))]
    dsimp only
    rw [if_neg (by decide), if_neg (by decide), if_pos rfl, bind_eq (skip_eq _),
      bind_eq ((lenient_next e _ he).trans (next_eq (by decide)))]
    dsimp only
    rw [if_pos rfl, bind_eq (skip_eq _), bind_eq (htext _)]
    rfl

theorem BeforeFields.length_le (h : BeforeFields isFirst fs r s) : fs.length ≤ s.length := by
  obtain ⟨parts, g, hparts, -, rfl⟩ := h
  have hle := length_le_length_between isFirst parts closing r
  rw [hparts.length_eq, List.length_append]
  omega

/-- Reading the value of a field takes whatever may stand there. -/
theorem fieldValue_takes {p : Reader α} (h : Takes p d a) (hs : AtValue d s t) (name : String) :
    fieldValue name p s = .ok (a, t) := by
  obtain ⟨hg, hg', hu, ht⟩ := hs
  apply within_eq
  rw [bind_eq ((lenient_colon _ _ hg).trans colon_eq)]
  exact h _ _ _ hg' hu ht

variable {field : α → String → Reader α}

/-- Fields with any values change a value step by step, however they are written. -/
inductive Folds (field : α → String → Reader α) : List (String × Json) → α → α → Prop
  | nil {a : α} : Folds field [] a a
  | cons {name : String} {d : Json} {fs : List (String × Json)} {a b c : α} :
    (∀ s t, AtValue d s t → field a name s = .ok (b, t)) → Folds field fs b c →
      Folds field ((name, d) :: fs) a c

/-- The fields of a record are gone through up to the closing mark. -/
theorem foldFieldsFrom_folds (h : Folds field fs a b) (hs : BeforeFields isFirst fs r s)
    {fuel : Nat} (hf : fs.length < fuel) :
    foldFieldsFrom field fuel isFirst a s = .ok (b, closing :: r) := by
  induction h generalizing s isFirst fuel with
  | nil =>
    obtain ⟨fuel, rfl⟩ : ∃ k, fuel = k + 1 := ⟨fuel - 1, by omega⟩
    exact bind_eq hs.over
  | cons hfield _ ih =>
    obtain ⟨fuel, rfl⟩ : ∃ k, fuel = k + 1 := ⟨fuel - 1, by omega⟩
    obtain ⟨s', t, hname, hvalue, hrest⟩ := hs.step
    rw [foldFieldsFrom, bind_eq hname]
    dsimp only
    rw [bind_eq (hfield _ _ hvalue)]
    exact ih hrest (by simpa using hf)

end Reader

/-! ### Records -/

/-- The values that stand under a name, in their order. -/
def valuesOf (name : String) (fs : List (String × Json)) : List Json :=
  (fs.filter fun f => f.1 == name).map Prod.snd

namespace Record

variable {σ τ : Type} {fs : List (String × Json)} {fields : List (Field σ)}
  {others : List (Field τ)}

/-- Fields in any order, unknown ones among them, make a draft out of a draft. -/
inductive Gathers (room : Nat) (fields : List (Field σ)) : List (String × Json) → σ → σ → Prop
  | nil {x : σ} : Gathers room fields [] x x
  | known {name : String} {d : Json} {fs : List (String × Json)} {x y : σ} (f : Field σ)
    (put : σ → σ) : fields.find? (fun f => f.name == name) = some f → f.taken x = false →
      Takes (f.read room) d put → Gathers room fields fs (put x) y →
      Gathers room fields ((name, d) :: fs) x y
  | unknown {name : String} {d : Json} {fs : List (String × Json)} {x y : σ} :
    fields.find? (fun f => f.name == name) = none → Gathers room fields fs x y →
      Gathers room fields ((name, d) :: fs) x y

theorem readField_known {q : Record α} {f : Field q.Draft} {x : q.Draft}
    (hf : q.fields.find? (fun f => f.name == name) = some f) (ht : f.taken x = false) :
    q.readField room x name = do return (← fieldValue name (f.read room)) x := by
  simp [readField, hf, ht]

theorem readField_repeated {q : Record α} {f : Field q.Draft} {x : q.Draft}
    (hf : q.fields.find? (fun f => f.name == name) = some f) (ht : f.taken x = true) :
    q.readField room x name = refuse (.repeatedField name) := by
  simp [readField, hf, ht]

theorem readField_unknown {q : Record α} (x : q.Draft)
    (hf : q.fields.find? (fun f => f.name == name) = none) :
    q.readField room x name = do
      fieldValue name skipValue
      return x := by
  simp [readField, hf]

/-- The loop over the fields of a record follows its drafts. -/
theorem Gathers.folds {q : Record α} {x y : q.Draft} (h : Gathers room q.fields fs x y) :
    Folds (q.readField room) fs x y := by
  induction h with
  | nil => exact .nil
  | known f put hf ht hput _ ih =>
    refine .cons (fun s t hs => ?_) ih
    rw [readField_known hf ht]
    exact bind_eq (fieldValue_takes hput hs _)
  | unknown hf _ ih =>
    refine .cons (fun s t hs => ?_) ih
    rw [readField_unknown _ hf]
    exact bind_eq (fieldValue_takes (takes_skipValue _) hs _)

theorem find?_both (fields : List (Field σ)) (others : List (Field τ)) (name : String) :
    (fields.map Field.left ++ others.map Field.right).find? (fun f => f.name == name) =
      ((fields.find? fun f => f.name == name).map Field.left).or
        ((others.find? fun f => f.name == name).map Field.right) := by
  simp only [List.find?_append, List.find?_map, Function.comp_def, Field.left, Field.right]

theorem find?_eq_none_of_find?_eq_some {f : Field σ}
    (hn : ∀ f ∈ fields, ∀ f' ∈ others, f.name ≠ f'.name)
    (hf : fields.find? (fun f => f.name == name) = some f) :
    others.find? (fun f => f.name == name) = none := by
  have hname := List.find?_some hf
  rw [beq_iff_eq] at hname
  simp only [List.find?_eq_none, beq_iff_eq]
  exact fun f' hf' hname' => hn f (List.mem_of_find?_eq_some hf) f' hf' (hname.trans hname'.symm)

/-- Two groups of fields find theirs among the same ones, if they have no name in common. -/
theorem Gathers.both {x x' : σ} {y y' : τ} (h : Gathers room fields fs x x')
    (h' : Gathers room others fs y y')
    (hn : ∀ f ∈ fields, ∀ f' ∈ others, f.name ≠ f'.name) :
    Gathers room (fields.map Field.left ++ others.map Field.right) fs (x, y) (x', y') := by
  induction h generalizing y with
  | nil =>
    cases h'
    exact .nil
  | @known name d fs x x' f put hf ht hput _ ih =>
    cases h' with
    | known f' put' hf' =>
      rw [find?_eq_none_of_find?_eq_some hn hf] at hf'
      cases hf'
    | unknown hf' h' =>
      refine .known f.left (Prod.map put id) ?_ ht (hput.map fun put => Prod.map put id) (ih h')
      rw [find?_both, hf]
      rfl
  | unknown hf _ ih =>
    cases h' with
    | known f' put' hf' ht' hput' h' =>
      refine .known f'.right (Prod.map id put') ?_ ht' (hput'.map fun put => Prod.map id put)
        (ih h')
      rw [find?_both, hf, hf']
      rfl
    | unknown hf' h' =>
      refine .unknown ?_ (ih h')
      rw [find?_both, hf, hf']
      rfl

/-- The fields make a value, whatever their order. -/
def Accepts (q : Record α) (room : Nat) (fs : List (String × Json)) (a : α) : Prop :=
  ∃ x, Gathers room q.fields fs q.blank x ∧ q.finish x = .ok a

section Single

variable {optional : Bool} {value : Decoder α} {missing : Except Cause α}

theorem gathers_absent (h : valuesOf name fs = []) (x : Option α) :
    Gathers room (single name optional value missing).fields fs x x := by
  induction fs with
  | nil => exact .nil
  | cons f fs ih =>
    have hne : f.1 ≠ name := by
      intro he
      simp [valuesOf, he] at h
    rw [valuesOf, List.filter_cons_of_neg (by simpa using hne)] at h
    exact .unknown (List.find?_cons_of_neg (by simpa using hne.symm)) (ih h)

theorem gathers_single (h : valuesOf name fs = [d]) (ha : Takes (value room) d a) :
    Gathers room (single name optional value missing).fields fs none (some a) := by
  induction fs with
  | nil => cases h
  | cons f fs ih =>
    by_cases he : f.1 = name
    · rw [valuesOf, List.filter_cons_of_pos (by simpa using he), List.map_cons,
        List.cons.injEq] at h
      obtain ⟨hd, hfs⟩ := h
      obtain ⟨_, _⟩ := f
      subst he hd
      exact .known _ (fun _ => some a) (List.find?_cons_of_pos (by simp)) rfl
        (ha.map fun a _ => some a) (gathers_absent hfs _)
    · rw [valuesOf, List.filter_cons_of_neg (by simpa using he)] at h
      exact .unknown (List.find?_cons_of_neg (by simpa using Ne.symm he)) (ih h)

theorem accepts_single (h : valuesOf name fs = [d]) (ha : Takes (value room) d a) :
    (single name optional value missing).Accepts room fs a :=
  ⟨some a, gathers_single h ha, rfl⟩

theorem accepts_absent (h : valuesOf name fs = []) (ha : missing = .ok a) :
    (single name optional value missing).Accepts room fs a :=
  ⟨none, gathers_absent h none, ha⟩

end Single

theorem accepts_map {q : Record α} (f : α → β) (h : q.Accepts room fs a) :
    (q.map f).Accepts room fs (f a) := by
  obtain ⟨x, hx, hf⟩ := h
  refine ⟨x, hx, ?_⟩
  simp [map, hf, Except.map]

theorem ne_of_names {q : Record α} {q' : Record β} (h : ∀ name ∈ q.names, name ∉ q'.names) :
    ∀ f ∈ q.fields, ∀ f' ∈ q'.fields, f.name ≠ f'.name := fun f hf _ hf' he =>
  h f.name (List.mem_map_of_mem hf) (he ▸ List.mem_map_of_mem hf')

theorem accepts_apply {q : Record (α → β)} {q' : Record α} {f : α → β} (h : q.Accepts room fs f)
    (h' : q'.Accepts room fs a) (hn : ∀ name ∈ q.names, name ∉ q'.names) :
    (q.apply q').Accepts room fs (f a) := by
  obtain ⟨x, hx, hf⟩ := h
  obtain ⟨y, hy, hg⟩ := h'
  refine accepts_map (q := q.both q') (a := (f, a)) (fun p => p.1 p.2)
    ⟨(x, y), hx.both hy (ne_of_names hn), ?_⟩
  simp [both, hf, hg, bind, Except.bind, pure, Except.pure]

/-- A record is read from its fields in any order. -/
theorem Accepts.takes {q : Record α} (h : q.Accepts room fs a) (name : String) :
    Takes (q.read name (room + 1)) (.record fs) a := by
  refine Lenient.takes (lenient_next.bind _) fun u r hu _ => ?_
  obtain ⟨x, hx, hf⟩ := h
  obtain ⟨parts, hparts, hu⟩ := hu
  obtain ⟨s, hs, hfields⟩ := BeforeFields.enclosed hparts hu r
  have hle := hfields.length_le
  have hfold : foldFields (q.readField room) q.blank s = .ok (x, closing :: r) :=
    foldFieldsFrom_folds hx.folds hfields (by omega)
  rw [hs, read, bind_eq (next_eq (by decide))]
  dsimp only
  rw [if_pos (Or.inr rfl), bind_eq (skip_eq _), if_pos rfl]
  refine closedBy_eq ?_ endRecord_eq
  rw [bind_eq hfold, hf]
  rfl

end Record

end Retrace.Json
