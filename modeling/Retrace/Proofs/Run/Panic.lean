import Retrace.Proofs.Text.Parts
import Retrace.Run.Exit

/-! What a panicked program says is found again: the message that stands on the lines after the
place of the panic, and in the older layout the one in quotes before it. -/
namespace Retrace

open Text

variable {front rest thread location quoted payload ending s : List Char}
  {ls before more : List (List Char)} {exit : Exit} {c : Char}

/-! ### The first mark -/

/-- If a text has the mark of a panic in it, no quote follows the first one. -/
def Unquoted (s : List Char) : Prop :=
  ∀ ab ∈ splitOnce panicMark s, ab.2.head? ≠ some '\''

instance : Decidable (Unquoted s) := inferInstanceAs (Decidable (∀ ab ∈ _, _))

/-- The mark of a panic behind a text is the first one there. -/
def Unmarked (s : List Char) : Prop :=
  splitOnce panicMark (s ++ panicMark) = some (s, [])

instance : Decidable (Unmarked s) := inferInstanceAs (Decidable (_ = _))

theorem head?_append_ne (hfront : front.head? ≠ some c) (hrest : rest.head? ≠ some c) :
    (front ++ rest).head? ≠ some c := by
  rw [List.head?_append]
  cases hf : front.head? with
  | none => exact hrest
  | some d => rwa [hf] at hfront

/-- What follows a mark that reaches into the next one starts as the next one goes on. -/
theorem head?_ne_of_overlap (h : panicMark ++ s = front ++ (panicMark ++ rest))
    (hfront : ¬ panicMark <:+: front) (hrest : rest.head? ≠ some '\'') : s.head? ≠ some '\'' := by
  -- The mark starts with a blank and ends with one, so that a thread that ends like the mark, but
  -- for the last blank, has it together with the blank of the next one.
  rcases List.append_eq_append_iff.mp h with ⟨d, rfl, -⟩ | ⟨e, hmark, hs⟩
  · exact absurd (List.prefix_append panicMark d).isInfix hfront
  · rcases List.append_eq_append_iff.mp hs with ⟨d, he, rfl⟩ | ⟨f, hmark', rfl⟩
    · have hd : d = [] := by
        have hlen := congrArg List.length (he ▸ hmark)
        simp only [List.length_append] at hlen
        exact List.eq_nil_of_length_eq_zero (by omega)
      rwa [hd, List.nil_append] at hrest
    · cases f with
      | nil => exact hrest
      | cons c f =>
        have hc : c ∈ panicMark := by rw [hmark']; simp
        have hquote : '\'' ∉ panicMark := by decide
        intro hs
        obtain rfl : c = '\'' := by simpa using hs
        exact hquote hc

/-- No quote follows the first mark of a line if none follows the one behind the thread. -/
theorem exists_splitOnce_of_unquoted (ht : Unquoted thread) (hrest : rest.head? ≠ some '\'') :
    ∃ a b, splitOnce panicMark (thread ++ (panicMark ++ rest)) = some (a, b) ∧
      b.head? ≠ some '\'' := by
  cases hs : splitOnce panicMark thread with
  | some ab =>
    refine ⟨ab.1, _, splitOnce_append_right hs, head?_append_ne (ht ab hs) ?_⟩
    exact fun h => nomatch h
  | none =>
    obtain ⟨a, b, hab, d, rfl⟩ := exists_splitOnce_append ' ' "panicked at ".toList thread rest
    have hline := eq_append_of_splitOnce hab
    simp only [List.append_assoc] at hline
    have hoverlap : panicMark ++ b = d ++ (panicMark ++ rest) :=
      (List.append_cancel_left hline).symm
    have hd : ¬ panicMark <:+: d :=
      fun hd => not_infix_of_splitOnce hs (hd.trans (List.suffix_append a d).isInfix)
    exact ⟨a, b, hab, head?_ne_of_overlap hoverlap hd hrest⟩

theorem splitOnce_of_unmarked (h : Unmarked thread) :
    splitOnce panicMark (thread ++ (panicMark ++ rest)) = some (thread, rest) := by
  rw [← List.append_assoc, splitOnce_append_right h, List.nil_append]

/-! ### Lines -/

/-- Lines without the mark are passed over. -/
theorem firstPanic_append (h : ∀ l ∈ before, ¬ panicMark <:+: l) :
    firstPanic (before ++ more) = firstPanic more := by
  induction before with
  | nil => rfl
  | cons l before ih =>
    obtain ⟨hl, hbefore⟩ := List.forall_mem_cons.mp h
    rw [List.cons_append, firstPanic, splitOnce_eq_none hl, ih hbefore]

/-- A line that ends the message of a panic, or a text that starts with one. -/
def Closes (s : List Char) : Prop := "note:".toList <+: s ∨ "stack backtrace:".toList <+: s

instance : Decidable (Closes s) := inferInstanceAs (Decidable (_ ∨ _))

theorem endsPanic_eq_true_iff : endsPanic s = true ↔ Closes s := by
  rw [endsPanic, Bool.or_eq_true, List.isPrefixOf_iff_prefix, List.isPrefixOf_iff_prefix, Closes]

theorem endsPanic_eq_false_iff : endsPanic s = false ↔ ¬ Closes s := by
  rw [← endsPanic_eq_true_iff, Bool.not_eq_true]

/-- The first line of a text that closes a message closes it. -/
theorem Closes.lines (h : Closes s) : ∃ l ls, lines s = l :: ls ∧ Closes l := by
  rcases h with h | h
  · obtain ⟨l, ls, hs, hl⟩ := exists_lines_eq_cons (by decide) (by decide) (by decide) h
    exact ⟨l, ls, hs, .inl hl⟩
  · obtain ⟨l, ls, hs, hl⟩ := exists_lines_eq_cons (by decide) (by decide) (by decide) h
    exact ⟨l, ls, hs, .inr hl⟩

/-- What may follow a message: nothing, or a text that closes it on the next line. -/
inductive Ending : List Char → Prop where
  | nothing : Ending []
  | closing {t : List Char} (h : Closes t) : Ending ('\n' :: t)

theorem not_closes_piece (hlines : ∀ l ∈ lines payload, ¬ Closes l)
    (hls : ls = lines payload ∨ ls = lines payload ++ [[]]) : ∀ l ∈ ls, ¬ Closes l := by
  rcases hls with rfl | rfl
  · exact hlines
  · exact List.forall_mem_append.mpr ⟨hlines, by decide⟩

/-- The lines up to the closing one are the message, but for the blanks around it. -/
theorem trim_message (hreturn : '\r' ∉ payload) (hlines : ∀ l ∈ lines payload, ¬ Closes l)
    (hend : Ending ending) :
    trim (join ['\n'] ((lines (payload ++ ending)).takeWhile fun l => !endsPanic l)) =
      trim payload := by
  have hopen (l : List Char) (hl : ¬ Closes l) : (!endsPanic l) = true := by
    rw [endsPanic_eq_false_iff.mpr hl, Bool.not_false]
  cases hend with
  | nothing =>
    have hall : ∀ l ∈ lines payload, (!endsPanic l) = true := fun l hl => hopen l (hlines l hl)
    rw [List.append_nil, List.takeWhile_eq_self_iff.mpr hall, trim_join_lines hreturn]
  | closing hs =>
    obtain ⟨ls, rfl, hsplit, hls⟩ := exists_pieces hreturn
    obtain ⟨l, more, hmore, hl⟩ := hs.lines
    have hall : ∀ l ∈ ls, (!endsPanic l) = true :=
      fun l hl => hopen l (not_closes_piece hlines hls l hl)
    have hclosed : ¬ (!endsPanic l) = true := by
      rw [endsPanic_eq_true_iff.mpr hl]
      decide
    have hnone : (l :: more).takeWhile (fun l => !endsPanic l) = [] :=
      List.takeWhile_cons_of_neg hclosed
    rw [hsplit, hmore, List.takeWhile_append_of_pos hall, hnone, List.append_nil]

/-! ### Messages -/

theorem panicText_lines (hrest : rest.head? ≠ some '\'')
    (hmore : trim (join ['\n'] (more.takeWhile fun l => !endsPanic l)) = s) (hs : s ≠ []) :
    panicText rest more = s := by
  unfold panicText
  split
  · exact absurd rfl hrest
  · simp only [hmore, List.isEmpty_eq_false_iff.mpr hs, Bool.false_eq_true, if_false]

/-- The message in quotes ends at the last place where it can. -/
theorem panicText_quoted (h : ¬ "', ".toList <:+: location) :
    panicText ('\'' :: (quoted ++ ("', ".toList ++ location))) more = quoted := by
  have hsplit : splitLast "', ".toList (quoted ++ ("', ".toList ++ location)) =
      some (quoted, location) :=
    splitLast_append_of_not_infix (p := ['\'', ',']) (by decide) h
  rw [panicText, hsplit]

theorem ofExit_of_firstPanic (h : firstPanic (lines s) = some quoted) :
    RunFailure.ofExit exit s = ⟨.panic, String.ofList quoted, String.ofList s⟩ := by
  have hmessage : panicMessage s = some (String.ofList quoted) := by rw [panicMessage, h]; rfl
  unfold RunFailure.ofExit
  rw [hmessage]

/-! ### Reports -/

/-- Lines none of which reports a panic. -/
structure Silent (ls : List (List Char)) : Prop where
  line : ∀ l ∈ ls, '\n' ∉ l
  mark : ∀ l ∈ ls, ¬ panicMark <:+: l

/-- Lines that report no panic are passed over. -/
theorem Silent.firstPanic (h : Silent before) :
    firstPanic (lines (before.flatMap (· ++ ['\n']) ++ s)) = firstPanic (lines s) := by
  rw [lines_flatMap h.line, firstPanic_append]
  intro l hl hmark
  obtain ⟨l, hbefore, rfl⟩ := List.mem_map.mp hl
  exact h.mark l hbefore (hmark.trans (dropReturn_prefix_self l).isInfix)

/-- What a panicked program writes: other lines, then one with its thread and the place, and after
it the message. -/
structure PanicReport where
  before : List (List Char)
  thread : List Char
  location : List Char
  payload : List Char
  ending : List Char

namespace PanicReport

variable {r : PanicReport}

/-- The line with the thread and the place. -/
def header (r : PanicReport) : List Char := r.thread ++ (panicMark ++ (r.location ++ [':']))

def text (r : PanicReport) : List Char :=
  r.before.flatMap (· ++ ['\n']) ++ (r.header ++ '\n' :: (r.payload ++ r.ending))

/-- The parts of a report are where it says: the thread and the place are on one line, and the
message goes up to a line that closes it. -/
structure Shaped (r : PanicReport) : Prop where
  before : Silent r.before
  thread : '\n' ∉ r.thread
  location : '\n' ∉ r.location
  location_head : r.location.head? ≠ some '\''
  payload_blank : blank r.payload = false
  payload_return : '\r' ∉ r.payload
  payload_open : ∀ l ∈ lines r.payload, ¬ Closes l
  ending : Ending r.ending

theorem Shaped.lines (h : r.Shaped) : lines (r.header ++ '\n' :: (r.payload ++ r.ending)) =
    r.header :: Text.lines (r.payload ++ r.ending) := by
  have hmark : '\n' ∉ panicMark := by decide
  exact lines_line (by simp [header, h.thread, h.location, hmark]) (by simp [header])

theorem Shaped.firstPanic (h : r.Shaped) (ht : Unquoted r.thread) :
    firstPanic (Text.lines r.text) = some (trim r.payload) := by
  have hrest : (r.location ++ [':']).head? ≠ some '\'' :=
    head?_append_ne h.location_head (by decide)
  obtain ⟨a, b, hab, hb⟩ := exists_splitOnce_of_unquoted ht hrest
  rw [text, h.before.firstPanic, h.lines, Retrace.firstPanic, header, hab]
  exact congrArg some <| panicText_lines hb
    (trim_message h.payload_return h.payload_open h.ending) (trim_ne_nil h.payload_blank)

end PanicReport

/-- The older layout: the message stands in quotes before the place, on one line with both. -/
structure QuotedReport where
  before : List (List Char)
  thread : List Char
  payload : List Char
  location : List Char
  ending : List Char

namespace QuotedReport

variable {r : QuotedReport}

/-- The line with the thread and the message, up to the place. -/
def header (r : QuotedReport) : List Char :=
  r.thread ++ (panicMark ++ '\'' :: (r.payload ++ "', ".toList))

def text (r : QuotedReport) : List Char :=
  r.before.flatMap (· ++ ['\n']) ++ (r.header ++ (r.location ++ r.ending))

/-- The parts of a report are where it says: all of it is on one line, and the place does not look
like the end of a message. -/
structure Shaped (r : QuotedReport) : Prop where
  before : Silent r.before
  thread : '\n' ∉ r.thread
  payload : '\n' ∉ r.payload
  location : '\n' ∉ r.location
  location_mark : ¬ "', ".toList <:+: r.location
  ending : r.ending = [] ∨ ∃ rest, r.ending = '\n' :: rest

/-- The line of a report ends with the place, but for a carriage return. -/
theorem Shaped.lines (h : r.Shaped) : ∃ location more, location <+: r.location ∧
    lines (r.header ++ (r.location ++ r.ending)) = (r.header ++ location) :: more := by
  have hline : '\n' ∉ r.header ++ r.location := by
    have hmark : '\n' ∉ panicMark := by decide
    simp [header, h.thread, h.payload, h.location, hmark]
  rw [← List.append_assoc]
  rcases h.ending with hend | ⟨rest, hend⟩
  · refine ⟨r.location, [], List.prefix_rfl, ?_⟩
    rw [hend, List.append_nil, Text.lines, linesFrom_last hline]
    simp [header]
  · refine ⟨dropReturn r.location, Text.lines rest, dropReturn_prefix_self _, ?_⟩
    have hlast : r.header.getLast? ≠ some '\r' := by simp [header, List.getLast?_cons]
    rw [hend, Text.lines, linesFrom_line hline, List.reverse_nil, List.nil_append,
      dropReturn_append hlast]

theorem Shaped.firstPanic (h : r.Shaped) (ht : Unmarked r.thread) :
    firstPanic (Text.lines r.text) = some r.payload := by
  obtain ⟨location, more, hlocation, hlines⟩ := h.lines
  have hsplit : splitOnce panicMark (r.header ++ location) =
      some (r.thread, '\'' :: (r.payload ++ ("', ".toList ++ location))) := by
    rw [header, List.append_assoc, List.append_assoc, splitOnce_of_unmarked ht, List.cons_append,
      List.append_assoc]
  rw [text, h.before.firstPanic, hlines, Retrace.firstPanic, hsplit]
  exact congrArg some (panicText_quoted fun hmark => h.location_mark
    (hmark.trans hlocation.isInfix))

end QuotedReport

/-- A panic that a program reports is what it failed by, however it ended: the message is the one
reported, without the blanks around it if it stands on lines of its own. -/
theorem ofExit_report :
    (∀ (r : PanicReport) (exit : Exit), r.Shaped → Unquoted r.thread →
      RunFailure.ofExit exit r.text =
        ⟨.panic, String.ofList (trim r.payload), String.ofList r.text⟩) ∧
    (∀ (r : QuotedReport) (exit : Exit), r.Shaped → Unmarked r.thread →
      RunFailure.ofExit exit r.text =
        ⟨.panic, String.ofList r.payload, String.ofList r.text⟩) := by
  constructor
  · intro r exit h ht
    exact ofExit_of_firstPanic (h.firstPanic ht)
  · intro r exit h ht
    exact ofExit_of_firstPanic (h.firstPanic ht)

/-- A test that fails with a message of two lines. -/
def assertionReport : PanicReport where
  before := ["running 1 test".toList, []]
  thread := "thread 'main'".toList
  location := "src/main.rs:4:5".toList
  payload := "assertion failed\n  left: 1".toList
  ending := "\nnote: run with more detail".toList

/-- A program of the older layout, whose message looks like the end of one. -/
def indexReport : QuotedReport where
  before := []
  thread := "thread 'main'".toList
  payload := "no 'k', stop".toList
  location := "src/main.rs:4:5".toList
  ending := "\nstack backtrace:".toList

theorem ofExit_report_samples :
    assertionReport.Shaped ∧ Unquoted assertionReport.thread ∧
    indexReport.Shaped ∧ Unmarked indexReport.thread ∧
    RunFailure.ofExit (.code 101) assertionReport.text =
      ⟨.panic, "assertion failed\n  left: 1", String.ofList assertionReport.text⟩ ∧
    RunFailure.ofExit (.signal 6 true) indexReport.text =
      ⟨.panic, "no 'k', stop", String.ofList indexReport.text⟩ := by
  have ha : assertionReport.Shaped := {
    before := ⟨by decide, by decide⟩, thread := by decide, location := by decide
    location_head := by decide, payload_blank := by decide, payload_return := by decide
    payload_open := by decide, ending := .closing (by decide) }
  have hi : indexReport.Shaped := {
    before := ⟨nofun, nofun⟩, thread := by decide, payload := by decide, location := by decide
    location_mark := by decide, ending := .inr ⟨_, rfl⟩ }
  exact ⟨ha, by decide, hi, by decide, ofExit_report.1 assertionReport (.code 101) ha (by decide),
    ofExit_report.2 indexReport (.signal 6 true) hi (by decide)⟩

/-- A report whose line is one of the older layout as well, by the name of the thread. -/
def namedReport : PanicReport where
  before := []
  thread := "thread 'x panicked at 'y', z'".toList
  location := "a.rs:1:2".toList
  payload := "boom\n".toList
  ending := []

/-- A report of the older layout by a thread whose name has the mark. -/
def markedReport : QuotedReport where
  before := []
  thread := "thread 'a panicked at b'".toList
  payload := "boom".toList
  location := "c.rs:1:2".toList
  ending := []

/-- The name of a thread may decide how its report is read. -/
theorem named_reports_misread :
    (namedReport.Shaped ∧ trim namedReport.payload = "boom".toList ∧
      (RunFailure.ofExit (.code 101) namedReport.text).message = "y") ∧
    markedReport.Shaped ∧ markedReport.payload = "boom".toList ∧
      (RunFailure.ofExit (.code 101) markedReport.text).message =
        "panicked at b' panicked at 'boom', c.rs:1:2" := by
  have hn : namedReport.Shaped := {
    before := ⟨nofun, nofun⟩, thread := by decide, location := by decide
    location_head := by decide, payload_blank := by decide, payload_return := by decide
    payload_open := by decide, ending := .nothing }
  have hm : markedReport.Shaped := {
    before := ⟨nofun, nofun⟩, thread := by decide, payload := by decide, location := by decide
    location_mark := by decide, ending := .inl rfl }
  exact ⟨⟨hn, by decide, by decide⟩, hm, rfl, by decide⟩

end Retrace
