import Retrace.Proofs.Json.Refusals
import Retrace.Value.Read

/-! Values are read from their kind and the written form of what they hold. -/
namespace Retrace.Value

open Json Reader

variable {letters : Letters} {items : Reader (List Value)} {room : Nat} {kind : Kind}
  {name : String} {u : List Char} {v : Value} {r : Input}

theorem fits_iff {n : Int} : fits n ↔ leastInt ≤ n ∧ n ≤ greatestInt := by
  rw [fits, Bool.and_eq_true, decide_eq_true_iff, decide_eq_true_iff]

theorem ofName?_name (m : Mark) : Mark.ofName? m.name = some m := by
  cases m <;> rfl

theorem nextMark_first (m : Mark) (u : List Char) :
    nextMark true ((fieldText (m.name, u)).map some ++ r) =
      .ok (some m, some ':' :: (u.map some ++ r)) := by
  rw [nextMark, nextMarkFrom, bind_eq (fieldName_first _ _)]
  simp [ofName?_name, pure_eq]

theorem nextMark_next (m : Mark) (u : List Char) :
    nextMark false (some ',' :: ((fieldText (m.name, u)).map some ++ r)) =
      .ok (some m, some ':' :: (u.map some ++ r)) := by
  rw [nextMark, nextMarkFrom, bind_eq (fieldName_next _ _)]
  simp [ofName?_name, pure_eq]

theorem nextMark_over (isFirst : Bool) :
    nextMark isFirst (closing :: r) = .ok (none, closing :: r) := by
  rw [nextMark, nextMarkFrom]
  exact bind_eq (fieldName_over _)

/-- A record is entered, and what is said of its fields is said of what is read. -/
theorem readInside_eq (fs : List (String × List Char)) (r : Input) :
    readInside items room ((recordText fs).map some ++ r) =
      closedBy endRecord (fields items room)
        ((Text.join [','] (fs.map fieldText)).map some ++ closing :: r) := by
  rw [map_recordText, readInside, bind_eq (next_eq (by decide))]
  simp only [if_pos]
  rw [bind_eq (skip_eq _)]

theorem readInside_record {fs : List (String × List Char)}
    (h : fields items room ((Text.join [','] (fs.map fieldText)).map some ++ closing :: r) =
      .ok (v, closing :: r)) :
    readInside items room ((recordText fs).map some ++ r) = .ok (v, r) := by
  rw [readInside_eq]
  exact closedBy_eq h endRecord_eq

/-- The record of a kind and of what it holds. -/
def taggedText (letters : Letters) (name : String) (u : List Char) : List (String × List Char) :=
  [(Mark.kind.name, quoteWith letters name.toList), (Mark.content.name, u)]

/-- After the kind and the name of the other field, what the value holds is read. -/
theorem fields_tagged (hl : Sound letters) (hk : kinds.lookup name = some kind) (u : List Char)
    (r : Input) :
    fields items room
        ((Text.join [','] ((taggedText letters name u).map fieldText)).map some ++ closing :: r) =
      (contentOf items room kind >>= endMarks) (u.map some ++ closing :: r) := by
  have hc := Decoder.reads_choice hl hk room
  simp only [taggedText, List.map_cons, List.map_nil, Text.join, List.map_append, List.append_assoc,
    List.cons_append, List.nil_append]
  rw [fields, bind_eq (nextMark_first .kind _)]
  dsimp only
  rw [bind_eq (show (do Reader.colon; Decoder.choice kinds room) _ = .ok (kind, _) from
    (bind_eq colon_eq).trans (hc.takes _ (atEnd_comma _))), bind_eq (nextMark_next .content _)]
  dsimp only
  rw [bind_eq colon_eq]

/-- A value is read from the record of its kind and of what it holds. -/
theorem reads_tagged (hl : Sound letters) (hk : kinds.lookup name = some kind)
    (h : Reads (contentOf items room kind) u v) :
    Reads (readInside items room) (recordText (taggedText letters name u)) v where
  starts := starts_recordText _
  takes r _ := by
    apply readInside_record
    rw [fields_tagged hl hk, bind_eq (h.takes _ (atEnd_closing _)), endMarks,
      bind_eq (nextMark_over _)]
    rfl

/-- The record of a kind is refused when the reader of that kind refuses what it holds. -/
theorem refuses_tagged (hl : Sound letters) (hk : kinds.lookup name = some kind)
    (h : Refuses (contentOf items room kind) u) :
    Refuses (readInside items room) (recordText (taggedText letters name u)) where
  starts := starts_recordText _
  fails r _ := by
    obtain ⟨f, hf⟩ := h.fails (closing :: r) (atEnd_closing r)
    have hfields : fields items room
        ((Text.join [','] ((taggedText letters name u).map fieldText)).map some ++ closing :: r) =
        .error f := by
      rw [fields_tagged hl hk]
      exact bind_error hf endMarks
    rw [readInside_eq]
    exact closedBy_error hfields endRecord

/-- Null is read from the record of its kind alone. -/
theorem reads_null (hl : Sound letters) :
    Reads (readInside items room)
      (recordText [(Mark.kind.name, quoteWith letters "null".toList)]) null where
  starts := starts_recordText _
  takes r _ := by
    apply readInside_record
    have hc : Reads (Decoder.choice kinds room) (quoteWith letters "null".toList) Kind.null :=
      Decoder.reads_choice hl rfl room
    simp only [List.map_cons, List.map_nil, Text.join]
    rw [fields, bind_eq (nextMark_first .kind _)]
    dsimp only
    rw [bind_eq (show (do Reader.colon; Decoder.choice kinds room) _ = .ok (Kind.null, _) from
      (bind_eq colon_eq).trans (hc.takes _ (atEnd_closing _))), bind_eq (nextMark_over _)]
    rfl

theorem read_succ (room : Nat) : read (room + 1) = readInside (Decoder.list read room) room := by
  cases room <;> rfl

end Retrace.Value
