import Retrace.Proofs.Json.Records
import Retrace.Proofs.Trace.Datum
import Retrace.Trace.Event
import Retrace.Trace.Report

/-! The line that reports an instrumentation call is read as the event of that call. -/
namespace Retrace.Call

open Json Json.Reader

variable {c : Call} {room : Nat}

def event (c : Call) : Event :=
  ⟨c.action, c.details, Datum.values c.data, some c.function, some c.line, c.backtrace⟩

def dataText (ds : List Datum) : List Char := listText (ds.map fun d => d.fragment.toList)

/-- The field of a report for the call chain, if that is noted. -/
def chainField : Option String → List (String × List Char)
  | some b => [("backtrace", (Datum.quote b).toList)]
  | none => []

def fields (c : Call) : List (String × List Char) :=
  [("action", (Datum.quote c.action).toList)] ++ [("details", (Datum.quote c.details).toList)] ++
    [("variables", dataText c.data)] ++ [("function", (Datum.quote c.function).toList)] ++
    [("line", (toString c.line).toList)] ++ chainField c.backtrace

theorem report_toList (c : Call) : c.report.toList = recordText c.fields ++ ['\n'] := by
  have hb : [Char.ofNat 123] = openBrace.toList ∧ [Char.ofNat 125] = closeBrace.toList := by decide
  cases hc : c.backtrace <;>
  · simp only [report, fields, hc, chainField, recordText, List.cons_append, List.nil_append,
      List.map_cons, List.map_nil, fieldText_plain "action" (by decide),
      fieldText_plain "details" (by decide), fieldText_plain "variables" (by decide),
      fieldText_plain "function" (by decide), fieldText_plain "line" (by decide),
      fieldText_plain "backtrace" (by decide), Text.join, dataText, ← Datum.list_toList]
    rw [← List.singleton_append, hb.1, hb.2]
    simp

theorem head?_toString_ne (n : Nat) : (toString n).toList.head? ≠ some 'n' := by
  obtain ⟨d, u, hu, hd⟩ := Decoder.starts_toString n
  rw [show (toString n).toList = d :: u from hu]
  rcases hd with rfl | hd
  · simp
  · intro he
    obtain rfl : d = 'n' := by simpa using he
    exact absurd hd (by decide)

theorem chainField_fst {g : String × List Char} {b : Option String} (h : g ∈ chainField b) :
    g.1 = "backtrace" := by
  cases b with
  | none => simp [chainField] at h
  | some b =>
    obtain rfl : g = ("backtrace", (Datum.quote b).toList) := by simpa [chainField] using h
    rfl

/-- The values of the fields of a report are read one by one. -/
theorem makes_event (hf : Datum.floatsFree c.data) (hd : 2 * Datum.depths c.data + 2 ≤ room)
    (hl : c.line ≤ 0xFFFFFFFF) : Event.layout.Makes room c.fields c.event := by
  obtain ⟨room, rfl⟩ : ∃ k, room = k + 1 := ⟨room - 1, by omega⟩
  have hdata := Decoder.reads_list (Datum.reads_fragments c.data room hf (by omega))
  have hfunction := Decoder.reads_some (Datum.reads_quote (room + 1) c.function)
    (Datum.head?_quote_ne c.function)
  have hline := Decoder.reads_some (Decoder.reads_word32 hl (room + 1))
    (head?_toString_ne c.line)
  have hchain : (Record.possible "backtrace" Decoder.text).Makes (room + 1)
      (chainField c.backtrace) c.backtrace := by
    cases hc : c.backtrace with
    | none => exact Record.makes_absent rfl
    | some b =>
      exact Record.makes_single (Decoder.reads_some (Datum.reads_quote (room + 1) b)
        (Datum.head?_quote_ne b))
  refine Record.makes_apply (Record.makes_apply (Record.makes_apply (Record.makes_apply
    (Record.makes_apply (Record.makes_map _ (Record.makes_single (Datum.reads_quote _ _)))
    (Record.makes_single (Datum.reads_quote _ _)) ?_) (Record.makes_single hdata) ?_)
    (Record.makes_single hfunction) ?_) (Record.makes_single hline) ?_) hchain ?_
  all_goals simp only [Record.names_apply, Record.names_map, Record.names_required,
    Record.names_withDefault, Record.names_possible]
  · simp
  · simp
  · simp
  · simp
  · intro g hg
    rw [chainField_fst hg]
    simp

/-- The line that reports a call is read as its event. -/
theorem read_report (hf : Datum.floatsFree c.data) (hd : Datum.depths c.data ≤ 60)
    (hl : c.line ≤ 0xFFFFFFFF) : Event.read.runText (recordText c.fields) = .ok c.event := by
  have hm : Event.layout.Makes 126 c.fields c.event := makes_event hf (by omega) hl
  have hr := (hm.reads "Event").takes [] atEnd_nil
  rw [List.append_nil] at hr
  simp only [Decoder.runText, Decoder.run, Event.read, roomLimit]
  rw [hr]
  rfl

theorem oneLine_chainField (b : Option String) : ∀ f ∈ chainField b, OneLine f.2 := by
  cases b with
  | none => simp [chainField]
  | some b => simpa [chainField] using Datum.oneLine_quote b

theorem oneLine_fields (hf : Datum.floatsFree c.data) : OneLine (recordText c.fields) := by
  apply oneLine_recordText
  simp only [fields, List.forall_mem_append, List.forall_mem_singleton]
  refine ⟨⟨⟨⟨⟨?_, ?_⟩, ?_⟩, ?_⟩, ?_⟩, oneLine_chainField c.backtrace⟩
  · exact Datum.oneLine_quote c.action
  · exact Datum.oneLine_quote c.details
  · exact oneLine_listText (Datum.oneLine_fragments _ hf)
  · exact Datum.oneLine_quote c.function
  · exact oneLine_toString c.line

end Retrace.Call
