import Retrace.Json.Document
import Retrace.Proofs.Json.Records
import Retrace.Proofs.Table

/-! The written form of a document is read as the value of which the document is the record. -/
namespace Retrace.Json

open Retrace.Text Reader

variable {α β : Type} {a : α} {d : Json} {room : Nat} {name : String}

/-! ### Written forms -/

theorem render_text (s : String) : (text s).render.toList = quoteWith recordLetters s.toList := by
  simp [render, quote]

theorem renderItems_toList (ds : List Json) :
    (renderItems ds).toList = join [','] (ds.map fun d => d.render.toList) := by
  induction ds with
  | nil => simp [renderItems, join]
  | cons d ds ih =>
    cases ds with
    | nil => simp [renderItems, join]
    | cons e ds =>
      rw [renderItems, String.toList_append, String.toList_append, ih]
      · simp [join]
      · simp

theorem render_list (ds : List Json) :
    (list ds).render.toList = listText (ds.map fun d => d.render.toList) := by
  simp [render, listText, renderItems_toList]

/-- The fields of a record with the written forms of what they hold. -/
def writtenFields (fs : List (String × Json)) : List (String × List Char) :=
  fs.map fun f => (f.1, f.2.render.toList)

theorem renderFields_toList (fs : List (String × Json)) :
    (renderFields fs).toList = join [','] ((writtenFields fs).map fieldText) := by
  induction fs with
  | nil => simp [renderFields, writtenFields, join]
  | cons f fs ih =>
    obtain ⟨k, d⟩ := f
    cases fs with
    | nil => simp [renderFields, writtenFields, fieldText, quote, join]
    | cons e fs =>
      rw [renderFields]
      · simp only [String.toList_append, ih]
        simp [writtenFields, fieldText, quote, join]
      · simp

theorem render_record (fs : List (String × Json)) :
    (record fs).render.toList = recordText (writtenFields fs) := by
  have hb : openBrace.toList = [Char.ofNat 123] ∧ closeBrace.toList = [Char.ofNat 125] := by decide
  simp [render, recordText, renderFields_toList, hb]

/-! ### Readers -/

/-- A reader takes the written form of a document for a value. -/
def Restores (p : Reader α) (d : Json) (a : α) : Prop := Reads p d.render.toList a

theorem Restores.map {p : Reader α} (h : Restores p d a) (f : α → β) :
    Restores (do return f (← p)) d (f a) :=
  Reads.map h f

/-- A document that is read as a value is so as a whole text. -/
theorem Restores.runText {value : Decoder α} (h : Restores (value roomLimit) d a) :
    value.runText d.render.toList = .ok a := by
  have hr := h.takes [] atEnd_nil
  rw [List.append_nil] at hr
  simp only [Decoder.runText, Decoder.run]
  rw [hr]
  rfl

theorem restores_text (room : Nat) (s : String) : Restores (Decoder.text room) (.text s) s := by
  have h := Decoder.reads_text sound_recordLetters room s.toList
  rwa [← render_text, String.ofList_toList] at h

theorem restores_word32 {n : Nat} (hn : n ≤ 0xFFFFFFFF) (room : Nat) :
    Restores (Decoder.word32 room) (.nat n) n :=
  Decoder.reads_word32 hn room

theorem restores_word64 {n : Nat} (hn : n ≤ 0xFFFFFFFFFFFFFFFF) (wanted : String) (room : Nat) :
    Restores (Decoder.word64 wanted room) (.nat n) n :=
  Decoder.reads_word64 hn wanted room

theorem restores_choice {choices : List (String × α)} (h : choices.lookup name = some a)
    (room : Nat) : Restores (Decoder.choice choices room) (.text name) a := by
  have hc := Decoder.reads_choice sound_recordLetters h room
  rwa [← render_text] at hc

theorem restores_list {item : Decoder α} {f : α → Json} {as : List α}
    (h : ∀ a ∈ as, Restores (item room) (f a) a) :
    Restores (Decoder.list item (room + 1)) (.list (as.map f)) as := by
  rw [Restores, render_list, List.map_map]
  apply Decoder.reads_list
  rw [List.forall₂_map_left_iff, List.forall₂_same]
  exact h

theorem restores_texts (room : Nat) (ss : List String) :
    Restores (Decoder.list Decoder.text (room + 1)) (.texts ss) ss :=
  restores_list fun s _ => restores_text room s

/-- A written form that is not taken for null. -/
def NotNull (d : Json) : Prop := d.render.toList.head? ≠ some 'n'

theorem notNull_text (s : String) : NotNull (.text s) := by
  simp [NotNull, render_text, quoteWith]

theorem notNull_record (fs : List (String × Json)) : NotNull (.record fs) := by
  simp [NotNull, render_record, recordText]

theorem notNull_nat (n : Nat) : NotNull (.nat n) := by
  obtain ⟨c, u, hu, hc⟩ := Decoder.starts_toString n
  have hhead : (Json.nat n).render.toList = c :: u := hu
  rw [NotNull, hhead, List.head?_cons]
  rintro ⟨⟩
  rcases hc with hc | hc
  · exact absurd hc (by decide)
  · exact absurd hc (by decide)

/-- What may be missing is null when it is, and is read like any other value when it is not. -/
theorem restores_option {value : Decoder α} {f : α → Json} {o : Option α}
    (h : ∀ a, o = some a → Restores (value room) (f a) a ∧ NotNull (f a)) :
    Restores (Decoder.option value room) (.ofOption f o) o := by
  cases o with
  | some a =>
    obtain ⟨hread, hnull⟩ := h a rfl
    exact Decoder.reads_some hread hnull
  | none =>
    have hnull : (Json.ofOption f none).render.toList = "null".toList := by rw [ofOption, render]
    rw [Restores, hnull]
    refine ⟨⟨'n', _, rfl, by decide, by decide⟩, fun r _ => ?_⟩
    rw [Decoder.option, bind_eq (next_head (p := some 'n') rfl (by decide))]
    exact bind_eq (word_eq "null".toList)

/-! ### Documents of any kind -/

namespace Document

theorem read_eq (room : Nat) : ∃ inside, read room = readWith inside := by
  cases room with
  | zero => exact ⟨none, rfl⟩
  | succ room => exact ⟨some (read room), rfl⟩

theorem restores_text (room : Nat) (s : String) : Restores (read room) (.text s) (.text s) := by
  obtain ⟨inside, hread⟩ := read_eq room
  rw [Restores, render_text, hread]
  refine ⟨starts_quoteWith _ _, fun r _ => ?_⟩
  rw [map_quoteWith, readWith, bind_eq (next_eq (by decide))]
  dsimp only
  rw [if_neg (by decide), if_neg (by decide), if_neg (by decide), if_pos rfl, bind_eq (skip_eq _),
    bind_eq (text_flatMap sound_recordLetters s.toList), String.ofList_toList]
  rfl

theorem restores_nat {n : Nat} (hn : n ≤ 0xFFFFFFFFFFFFFFFF) (room : Nat) :
    Restores (read room) (.nat n) (.whole n) := by
  obtain ⟨inside, hread⟩ := read_eq room
  rw [hread]
  refine ⟨Decoder.starts_number n, fun r hr => ?_⟩
  have hnum := Numeral.read_toString (n := n) (by omega) (by omega) hr
  obtain ⟨c, u, hu, hc⟩ := Decoder.starts_toString n
  have hne : ∀ d, d ≠ '-' → d.isDigit = false → (some c : Piece) ≠ some d := fun d hm hd h =>
    Decoder.ne_of_number hc hm hd (Option.some.inj h)
  rw [show (Json.nat n).render.toList = c :: u from hu]
  rw [hu] at hnum
  simp only [List.map_cons, List.cons_append] at hnum ⊢
  rw [readWith, bind_eq (next_eq (Decoder.not_gap_of_number hc).1)]
  dsimp only
  rw [if_neg (hne 'n' (by decide) (by decide)), if_neg (hne 't' (by decide) (by decide)),
    if_neg (hne 'f' (by decide) (by decide)), if_neg (hne '"' (by decide) (by decide)),
    if_pos (Decoder.sees_number hc), bind_eq hnum]
  rfl

end Document

/-! ### Tables -/

/-- The rows of a table are put in one by one as they are read. -/
theorem fills_rows {value : Decoder α} {f : α → Json} (rows : List (String × α)) (t : Table α)
    (h : ∀ row ∈ rows, Restores (value room) (f row.2) row.2) :
    Fills (fun t name => do return t.insert name (← fieldValue name (value room)))
      (writtenFields (rows.map fun row => (row.1, f row.2))) t
      (rows.foldl (fun t row => t.insert row.1 row.2) t) := by
  induction rows generalizing t with
  | nil => exact .nil
  | cons row rows ih =>
    refine .cons (fun r hr => ?_) (ih _ fun row' h' => h row' (List.mem_cons_of_mem _ h'))
    exact bind_eq (fieldValue_eq (h row List.mem_cons_self) hr)

/-- A table is read with its rows in their order. -/
theorem restores_table {value : Decoder α} {f : α → Json} {t : Table α}
    (h : ∀ row ∈ t.rows, Restores (value room) (f row.2) row.2) :
    Restores (Decoder.table value (room + 1))
      (.record (t.rows.map fun row => (row.1, f row.2))) t := by
  rw [Restores, render_record]
  refine ⟨starts_recordText _, fun r _ => ?_⟩
  have hfills := fills_rows t.rows Table.empty h
  rw [show t.rows.foldl _ Table.empty = t from t.ofRows_rows] at hfills
  rw [map_recordText, Decoder.table, bind_eq (next_eq (by decide)), if_pos rfl, bind_eq (skip_eq _)]
  exact closedBy_eq (foldFields_eq hfills) endRecord_eq

/-! ### Records -/

namespace Record

variable {value : Decoder α} {f : α → β} {fs : List (String × Json)}

/-- The fields of a document make a value when they are read in their order. -/
def Builds (q : Record α) (room : Nat) (fs : List (String × Json)) (a : α) : Prop :=
  q.Makes room (writtenFields fs) a

theorem builds_first (name : String) (f : α → β) (h : Restores (value room) d a) :
    ((required name value).map f).Builds room [(name, d)] (f a) :=
  makes_map f (makes_single h)

/-- One more field is read after the others. -/
theorem Builds.next {q : Record (α → β)} {q' : Record α} (hq : q.Builds room fs f)
    (hq' : q'.Builds room [(name, d)] a) (hn : name ∉ q.names) :
    (q.apply q').Builds room (fs ++ [(name, d)]) (f a) := by
  rw [Builds, writtenFields, List.map_append]
  exact makes_apply hq hq' (by simpa using hn)

theorem Builds.required {q : Record (α → β)} (hq : q.Builds room fs f) (name : String)
    (h : Restores (value room) d a) (hn : name ∉ q.names) :
    (q.apply (Record.required name value)).Builds room (fs ++ [(name, d)]) (f a) :=
  hq.next (makes_single h) hn

theorem Builds.possible {q : Record (Option α → β)} {f : Option α → β} {o : Option α}
    (hq : q.Builds room fs f) (name : String) (h : Restores (Decoder.option value room) d o)
    (hn : name ∉ q.names) :
    (q.apply (Record.possible name value)).Builds room (fs ++ [(name, d)]) (f o) :=
  hq.next (makes_single h) hn

theorem Builds.restores {q : Record α} (h : q.Builds room fs a) (name : String) :
    Restores (q.read name (room + 1)) (.record fs) a := by
  rw [Restores, render_record]
  exact Makes.reads h name

end Record

end Retrace.Json
