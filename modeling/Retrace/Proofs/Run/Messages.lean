import Retrace.Proofs.Json.Entire
import Retrace.Run.Compiler

/-! The diagnostics of a stream of lines are those of the messages in it, whatever stands between the
messages and however they are written. -/
namespace Retrace

open Json Text

variable {fs : List (String × Json)} {line : List Char} {ls : List (List Char)} {d : Json}
  {m : CompilerMessage} {ms : List CompilerMessage} {s : MessageSpan} {room : Nat} {t : String}

/-! ### What a record says -/

/-- A span is told by fields: its line and its column, and whether it is primary unless it is not. -/
structure MessageSpan.ToldBy (fs : List (String × Json)) (s : MessageSpan) : Prop where
  line : valuesOf "line_start" fs = [.nat s.line]
  column : valuesOf "column_start" fs = [.nat s.column]
  isPrimary : valuesOf "is_primary" fs = [.truth s.isPrimary] ∨
    valuesOf "is_primary" fs = [] ∧ s.isPrimary = false
  line_le : s.line ≤ 0xFFFFFFFFFFFFFFFF
  column_le : s.column ≤ 0xFFFFFFFFFFFFFFFF

/-- A text that may be missing or null is told by fields. -/
def TextToldBy (name : String) (fs : List (String × Json)) : Option String → Prop
  | none => valuesOf name fs = [] ∨ valuesOf name fs = [.null]
  | some t => valuesOf name fs = [.text t]

namespace CompilerMessage

/-- A message is told by fields, whatever their order and whatever other fields there are. -/
structure ToldBy (fs : List (String × Json)) (m : CompilerMessage) : Prop where
  type : TextToldBy "$message_type" fs m.type
  message : valuesOf "message" fs = [.text m.message]
  level : valuesOf "level" fs = [.text m.level]
  spans : (valuesOf "spans" fs = [] ∧ m.spans = []) ∨ ∃ ds, valuesOf "spans" fs = [.list ds] ∧
    List.Forall₂ (fun d s => ∃ fs, d = .record fs ∧ MessageSpan.ToldBy fs s) ds m.spans
  rendered : TextToldBy "rendered" fs m.rendered

/-- A line says a message: it is a record of fields that tell the message. -/
def SaidBy (line : List Char) (m : CompilerMessage) : Prop :=
  ∃ fs, Padded (SpelledBy (.record fs)) line ∧ m.ToldBy fs

/-- A line that says no message of a compiler about a program. -/
inductive Noise (line : List Char) : Prop
  | plain (h : (trimStart line).head? ≠ some (Char.ofNat 123))
  | otherType {fs : List (String × Json)} {t : String}
    (h : Padded (SpelledBy (.record fs)) line) (ht : .text t ∈ valuesOf "$message_type" fs)
    (hne : t ≠ "diagnostic")
  | undecodable (h : ∃ e, read.runText line = .error e)

/-- Lines that say messages with any other lines between them. -/
inductive Stream : List (List Char) → List CompilerMessage → Prop
  | nil : Stream [] []
  | message {line : List Char} {ls : List (List Char)} {m : CompilerMessage}
    {ms : List CompilerMessage} (h : m.SaidBy line)
    (ht : m.type = none ∨ m.type = some "diagnostic") (hs : Stream ls ms) :
    Stream (line :: ls) (m :: ms)
  | noise {line : List Char} {ls : List (List Char)} {ms : List CompilerMessage}
    (h : Noise line) (hs : Stream ls ms) : Stream (line :: ls) ms

/-- The place that spans point at: the first primary one, or the first one if none is primary. -/
inductive PointsAt : List MessageSpan → Option Nat → Option Nat → Prop
  | nowhere : PointsAt [] none none
  | primary {before after : List MessageSpan} {s : MessageSpan}
    (h : ∀ p ∈ before, p.isPrimary = false) (hs : s.isPrimary = true) :
    PointsAt (before ++ s :: after) (some s.line) (some s.column)
  | first {s : MessageSpan} {ss : List MessageSpan} (h : ∀ p ∈ s :: ss, p.isPrimary = false) :
    PointsAt (s :: ss) (some s.line) (some s.column)

/-- A diagnostic reports a message. -/
structure ReportedBy (m : CompilerMessage) (d : Diagnostic) : Prop where
  level : d.level = m.level
  message : d.message = m.message
  place : PointsAt m.spans d.line d.column
  rendered : ∀ r, m.rendered = some r → d.rendered = r
  unrendered : m.rendered = none → d.rendered = m.level ++ ": " ++ m.message

end CompilerMessage

/-! ### Messages are read as they are said -/

theorem blank_of_gap {c : Char} (h : Reader.isGap (some c) = true) : isBlank c = true := by
  simp only [Reader.isGap, Bool.or_eq_true, decide_eq_true_eq, Option.some.injEq] at h
  rcases h with ((rfl | rfl) | rfl) | rfl <;> decide

theorem MessageSpan.ToldBy.takes (h : s.ToldBy fs) (room : Nat) :
    Takes (MessageSpan.read (room + 1)) (.record fs) s := by
  have hline : (Record.required "line_start" (Decoder.word64 "usize")).Accepts room fs s.line :=
    Record.accepts_single h.line (Decoder.takes_word64 h.line_le "usize" room)
  have hcolumn : (Record.required "column_start" (Decoder.word64 "usize")).Accepts room fs
      s.column :=
    Record.accepts_single h.column (Decoder.takes_word64 h.column_le "usize" room)
  have hprimary : (Record.withDefault "is_primary" Decoder.truth false).Accepts room fs
      s.isPrimary := by
    rcases h.isPrimary with hvalue | ⟨hnone, hfalse⟩
    · exact Record.accepts_single hvalue (Decoder.takes_truth s.isPrimary room)
    · exact Record.accepts_absent hnone (by rw [hfalse])
  exact (Record.accepts_apply (Record.accepts_apply (Record.accepts_map MessageSpan.mk hline)
    hcolumn (by simp)) hprimary (by simp)).takes "MessageSpan"

theorem takes_optionalText (t : String) (room : Nat) :
    Takes (Decoder.option Decoder.text room) (.text t) (some t) :=
  Decoder.takes_some (Decoder.takes_textAs "a string" room t) nofun

theorem accepts_optionalText {name : String} {o : Option String} (h : TextToldBy name fs o)
    (optional : Bool) (room : Nat) :
    (Record.single name optional (Decoder.option Decoder.text) (.ok none)).Accepts room fs o := by
  cases o with
  | none =>
    rcases h with hnone | hnull
    · exact Record.accepts_absent hnone rfl
    · exact Record.accepts_single hnull (Decoder.takes_null Decoder.text room)
  | some t => exact Record.accepts_single h (takes_optionalText t room)

namespace CompilerMessage

theorem ToldBy.takes (h : m.ToldBy fs) (room : Nat) :
    Takes (read (room + 3)) (.record fs) m := by
  have htype := accepts_optionalText h.type true (room + 2)
  have hmessage : (Record.required "message" Decoder.text).Accepts (room + 2) fs m.message :=
    Record.accepts_single h.message (Decoder.takes_textAs "a string" _ m.message)
  have hlevel : (Record.required "level" Decoder.text).Accepts (room + 2) fs m.level :=
    Record.accepts_single h.level (Decoder.takes_textAs "a string" _ m.level)
  have hspans : (Record.withDefault "spans" (Decoder.list MessageSpan.read) []).Accepts (room + 2)
      fs m.spans := by
    rcases h.spans with ⟨hnone, hempty⟩ | ⟨ds, hvalue, hds⟩
    · exact Record.accepts_absent hnone (by rw [hempty])
    · refine Record.accepts_single hvalue (takes_list (hds.imp ?_))
      rintro d s ⟨fs, rfl, hs⟩
      exact hs.takes room
  have hrendered := accepts_optionalText h.rendered false (room + 2)
  exact (Record.accepts_apply (Record.accepts_apply (Record.accepts_apply (Record.accepts_apply
    (Record.accepts_map CompilerMessage.mk htype) hmessage (by simp)) hlevel (by simp))
    hspans (by simp)) hrendered (by simp)).takes "CompilerMessage"

/-- A line that says a message is read as that message. -/
theorem ofLine?_saidBy (h : m.SaidBy line) : ofLine? line = some m := by
  obtain ⟨fs, ⟨g, u, g', hg, hg', hu, rfl⟩, hm⟩ := h
  have hblank : ∀ c ∈ g, isBlank c = true := fun c hc => blank_of_gap (hg c hc)
  obtain ⟨c, v, hv, hc⟩ := hu.head
  obtain rfl : c = Char.ofNat 123 := hc
  have hstart : (trimStart (g ++ u ++ g')).head? = some (Char.ofNat 123) := by
    rw [trimStart, List.append_assoc, List.dropWhile_append_of_pos hblank, hv]
    rfl
  have hread := hm.takes 124 g u (g'.map some ++ []) hg hu (atEnd_gap hg' atEnd_nil)
  have hrest : (g'.map (some : Char → Piece)).dropWhile Reader.isGap = [] := by
    have hgap : ∀ p ∈ g'.map (some : Char → Piece), Reader.isGap p = true := by
      intro p hp
      obtain ⟨c, hc, rfl⟩ := List.mem_map.mp hp
      exact hg' c hc
    rw [← List.append_nil (g'.map some), List.dropWhile_append_of_pos hgap]
    rfl
  have hrun : read.run ((g ++ u ++ g').map some) = .ok m := by
    simp only [List.append_nil] at hread
    rw [Decoder.run, List.map_append, List.map_append, List.append_assoc]
    show (read 127 _ >>= _) = _
    rw [hread]
    simp [bind, Except.bind, hrest, pure, Except.pure]
  rw [ofLine?, if_pos hstart, Decoder.runText, hrun]
  rfl

/-! ### Other lines are passed over -/

theorem entire_text (room : Nat) : Entire (Decoder.text room) :=
  Decoder.entire_textAs "a string" room

theorem entire_span (room : Nat) : Entire (MessageSpan.read room) :=
  ((((Record.entireFields_required "line_start" (Decoder.entire_word64 "usize")).map
    MessageSpan.mk).apply
      (Record.entireFields_required "column_start" (Decoder.entire_word64 "usize"))).apply
      (Record.entireFields_withDefault "is_primary" false Decoder.entire_truth)).entire _ room

/-- If a record is read as a message, what stands under the name of the type is the type. -/
theorem type_of_read {u : List Char} {r r' : Input} (hu : SpelledBy (.record fs) u)
    (ht : .text t ∈ valuesOf "$message_type" fs)
    (hok : read (room + 1) (u.map some ++ r) = .ok (m, r')) : m.type = some t := by
  have htype := Record.entireFields_withDefault "$message_type" none fun room =>
    Decoder.entire_option (entire_text room)
  have hentire := ((((htype.map CompilerMessage.mk).apply
    (Record.entireFields_required "message" entire_text)).apply
    (Record.entireFields_required "level" entire_text)).apply
    (Record.entireFields_withDefault "spans" [] (entire_list entire_span))).apply
    (Record.entireFields_possible "rendered" entire_text)
  obtain ⟨f, _, hmade, -, rfl⟩ := Record.made_apply (by simp) (hentire.made hu hok).2
  obtain ⟨g, _, hmade, -, hf⟩ := Record.made_apply (by simp) hmade
  obtain ⟨h, _, hmade, -, hg⟩ := Record.made_apply (by simp) hmade
  obtain ⟨k, _, hmade, -, hh⟩ := Record.made_apply (by simp) hmade
  obtain ⟨o, hmade, hk⟩ := Record.made_map hmade
  rw [hf, hg, hh, hk]
  obtain ⟨hnone, -⟩ | ⟨d, hone, hgives⟩ := Record.made_single hmade
  · rw [hnone] at ht
    cases ht
  · rw [hone, List.mem_singleton] at ht
    subst ht
    exact hgives.eq (takes_optionalText t room)

/-- A line that says no message is not read, or as a message of another type. -/
theorem ofLine?_noise (h : Noise line) :
    ofLine? line = none ∨ ∃ m, ofLine? line = some m ∧ m.isDiagnostic = false := by
  rw [ofLine?]
  cases h with
  | plain h => exact Or.inl (if_neg h)
  | undecodable h =>
    obtain ⟨e, he⟩ := h
    exact Or.inl (by rw [he]; split <;> rfl)
  | @otherType fs t h ht hne =>
    split
    · cases hrun : read.runText line with
      | error e => exact Or.inl rfl
      | ok m =>
        obtain ⟨r, hread⟩ := Decoder.ok_of_runText hrun
        obtain ⟨g, u, g', hg, -, hu, rfl⟩ := h
        rw [List.append_assoc, List.map_append, read, Record.lenient_read _ _ _ g _ hg,
          List.map_append] at hread
        have htype := type_of_read hu ht hread
        exact Or.inr ⟨m, rfl, by simpa [isDiagnostic, htype] using hne⟩
    · exact Or.inl rfl

/-! ### Diagnostics report messages -/

theorem pointsAt_place (m : CompilerMessage) :
    PointsAt m.spans (m.place?.map MessageSpan.line) (m.place?.map MessageSpan.column) := by
  rw [place?]
  cases hfind : m.spans.find? MessageSpan.isPrimary with
  | some s =>
    obtain ⟨hs, before, after, hspans, hbefore⟩ := List.find?_eq_some_iff_append.mp hfind
    rw [hspans]
    exact .primary (fun s hs => by simpa using hbefore s hs) hs
  | none =>
    have hnone : ∀ s ∈ m.spans, s.isPrimary = false := by simpa using hfind
    cases hspans : m.spans with
    | nil => exact .nowhere
    | cons s ss =>
      rw [hspans] at hnone
      exact .first hnone

theorem reportedBy_diagnostic (m : CompilerMessage) : m.ReportedBy m.diagnostic where
  level := rfl
  message := rfl
  place := m.pointsAt_place
  rendered r hr := by simp [diagnostic, hr]
  unrendered hr := by simp [diagnostic, hr]

/-- The messages of a stream are those of its lines that are diagnostics. -/
theorem Stream.messages (h : Stream ls ms) :
    (ls.filterMap ofLine?).filter isDiagnostic = ms := by
  induction h with
  | nil => rfl
  | @message line ls m ms h ht _ ih =>
    have hdiagnostic : m.isDiagnostic = true := by
      rcases ht with ht | ht <;> simp [isDiagnostic, ht]
    rw [List.filterMap_cons_some (ofLine?_saidBy h), List.filter_cons_of_pos hdiagnostic, ih]
  | @noise line ls ms h _ ih =>
    rcases ofLine?_noise h with hnone | ⟨m, hm, hother⟩
    · rw [List.filterMap_cons_none hnone, ih]
    · rw [List.filterMap_cons_some hm, List.filter_cons_of_neg (by simp [hother]), ih]

end CompilerMessage

open CompilerMessage in
/-- Whatever stands between the messages of a text, and however they are written, the diagnostics of
the text report them one by one. Those of two texts are found in the one after the other, if the
first is a text of whole lines. -/
theorem diagnostics_report_stream :
    (∀ text ms, Stream (lines text) ms → List.Forall₂ ReportedBy ms (diagnostics text)) ∧
      ∀ a b, a = [] ∨ a.getLast? = some '\n' →
        diagnostics (a ++ b) = diagnostics a ++ diagnostics b := by
  refine ⟨fun text ms h => ?_, fun a b h => ?_⟩
  · rw [diagnostics, h.messages, List.forall₂_map_right_iff]
    exact List.forall₂_same.mpr fun m _ => m.reportedBy_diagnostic
  · simp only [diagnostics, lines_append h, List.filterMap_append, List.filter_append,
      List.map_append]

/-- The fields of a message with a span, out of their order and with one that is not known. -/
def sampleFields : List (String × Json) :=
  [("level", .text "error"), ("code", .null), ("message", .text "é\n"),
    ("spans", .list [.record [("column_start", .nat 5), ("line_start", .nat 3)]])]

def sampleMessage : CompilerMessage := ⟨none, "é\n", "error", [⟨3, 5, false⟩], none⟩

/-- Lines before a message and the message with blanks around it. -/
def sampleOpening : List Char :=
  ("note: m\n \x7b\"level\":\"error\",\"code\":null,\"message\":\"é\\n\"," ++
    "\"spans\":[\x7b\"column_start\":5,\"line_start\":3\x7d]\x7d \r\n").toList

/-- A record of another type and a line that is not closed. -/
def sampleClosing : List Char := "\x7b\"$message_type\":\"artifact\"\x7d\n\x7b".toList

theorem lines_sampleOpening : lines sampleOpening =
    ["note: m".toList, [' '] ++ (Json.record sampleFields).render.toList ++ [' ']] := by
  decide +kernel

theorem lines_sampleClosing : lines sampleClosing =
    [(Json.record [("$message_type", .text "artifact")]).render.toList, [Char.ofNat 123]] := by
  decide +kernel

/-- Of four lines the one with the message is reported, with the place of its only span. -/
theorem diagnostics_report_stream_sample :
    List.Forall₂ CompilerMessage.ReportedBy [sampleMessage] (diagnostics sampleOpening) ∧
      diagnostics sampleClosing = [] ∧
      diagnostics (sampleOpening ++ sampleClosing) = diagnostics sampleOpening := by
  obtain ⟨hreport, happend⟩ := diagnostics_report_stream
  have hspelled : SpelledBy (.record sampleFields) (Json.record sampleFields).render.toList :=
    spelledBy_render _ ⟨trivial, trivial, trivial, ⟨⟨written_nat 5, written_nat 3, trivial⟩, trivial⟩,
      trivial⟩
  have htold : sampleMessage.ToldBy sampleFields :=
    { type := Or.inl rfl
      message := rfl
      level := rfl
      spans := Or.inr ⟨_, rfl, .cons ⟨_, rfl, rfl, rfl, Or.inr ⟨rfl, rfl⟩, by decide, by decide⟩ .nil⟩
      rendered := Or.inl rfl }
  have hgap : Gap [' '] := List.forall_mem_singleton.mpr rfl
  have hopening : CompilerMessage.Stream (lines sampleOpening) [sampleMessage] := by
    rw [lines_sampleOpening]
    exact .noise (.plain (by decide)) (.message
      ⟨_, ⟨[' '], _, [' '], hgap, hgap, hspelled, rfl⟩, htold⟩ (Or.inl rfl) .nil)
  have hclosing : CompilerMessage.Stream (lines sampleClosing) [] := by
    rw [lines_sampleClosing]
    refine .noise (.otherType (t := "artifact") (padded_self (spelledBy_render _ ⟨trivial, trivial⟩))
      (List.mem_singleton.mpr rfl) (by decide)) (.noise (.undecodable ?_) .nil)
    have hfails : (CompilerMessage.read.runText [Char.ofNat 123]).isOk = false := by decide +kernel
    cases hrun : CompilerMessage.read.runText [Char.ofNat 123] with
    | error e => exact ⟨e, rfl⟩
    | ok m =>
      rw [hrun] at hfails
      cases hfails
  have hnone : diagnostics sampleClosing = [] :=
    List.forall₂_nil_left_iff.mp (hreport sampleClosing [] hclosing)
  refine ⟨hreport sampleOpening [sampleMessage] hopening, hnone, ?_⟩
  rw [happend sampleOpening sampleClosing (Or.inr (by decide +kernel)), hnone, List.append_nil]

end Retrace
