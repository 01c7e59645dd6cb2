import Retrace.Proofs.Table
import Retrace.Proofs.Text.Lines
import Retrace.Proofs.Trace.Report
import Retrace.Proofs.Trace.Run
import Retrace.Trace.Replay

/-! The lines that report the calls of a program are replayed into a step for each call. -/
namespace Retrace

open Json Text

/-- An instrumentation call as it stands in a program, with names and the data they name. -/
structure NamedCall where
  action : String
  details : String
  pairs : List (String × Datum)
  function : String
  line : UInt32
  backtrace : Option String

namespace NamedCall

/-- The call with its names and data taking turns. -/
def toCall (n : NamedCall) : Call :=
  ⟨n.action, n.details, n.pairs.flatMap fun p => [.text p.1, p.2], n.function, n.line.toNat,
    n.backtrace⟩

/-- The values of a call by name, in the order of its pairs. -/
def rows (n : NamedCall) : List (String × Value) := n.pairs.map fun p => (p.1, p.2.value)

/-- The data of a call can be reported: no floats, and lists nested at most sixty deep. -/
def Reportable (n : NamedCall) : Prop :=
  ∀ p ∈ n.pairs, p.2.floatFree ∧ p.2.depth ≤ 60

instance (n : NamedCall) : Decidable n.Reportable :=
  inferInstanceAs (Decidable (∀ p ∈ n.pairs, p.2.floatFree ∧ p.2.depth ≤ 60))

theorem mem_data {n : NamedCall} {d : Datum} (h : d ∈ n.toCall.data) :
    ∃ p ∈ n.pairs, d = .text p.1 ∨ d = p.2 := by
  simpa [toCall] using h

theorem Reportable.floatsFree {n : NamedCall} (h : n.Reportable) :
    Datum.floatsFree n.toCall.data := by
  rw [Datum.floatsFree_iff]
  intro d hd
  obtain ⟨p, hp, rfl | rfl⟩ := mem_data hd
  · rfl
  · exact (h p hp).1

theorem Reportable.depths {n : NamedCall} (h : n.Reportable) :
    Datum.depths n.toCall.data ≤ 60 := by
  rw [Datum.depths_le_iff]
  intro d hd
  obtain ⟨p, hp, rfl | rfl⟩ := mem_data hd
  · exact Nat.zero_le _
  · exact (h p hp).2

theorem keys_rows (n : NamedCall) :
    (Table.ofRows n.rows).keys = (n.pairs.map Prod.fst).eraseDups := by
  simp [Table.keys_ofRows, rows, Function.comp_def]

theorem get?_rows (n : NamedCall) (k : String) : (Table.ofRows n.rows).get? k =
    (n.pairs.reverse.find? fun p => p.1 == k).map fun p => p.2.value := by
  simp [Table.get?_ofRows, rows, ← List.map_reverse, List.find?_map, Function.comp_def]

theorem pairUp_values (ps : List (String × Datum)) :
    Value.pairUp (Datum.values (ps.flatMap fun p => [.text p.1, p.2])) =
      ps.map fun p => (p.1, p.2.value) := by
  induction ps with
  | nil => rfl
  | cons p ps ih => simp [Datum.values, Datum.value, Value.pairUp, Value.name, ih]

/-- Names and data that took turns come together again. -/
theorem bindings_event (n : NamedCall) :
    n.toCall.event.recording.bindings = .ofRows n.rows :=
  congrArg Table.ofRows (pairUp_values n.pairs)

end NamedCall

namespace Collector

variable {c : Collector} {n : NamedCall}

theorem blank_recordText (fs : List (String × List Char)) : blank (recordText fs) = false := by
  simp [blank, recordText, isBlank]

theorem getLast?_recordText (fs : List (String × List Char)) :
    (recordText fs).getLast? ≠ some '\r' := by
  rw [recordText, List.getLast?_append]
  simp

/-- One line of a report is one turn of the replay. -/
theorem ingestLines_report (h : n.Reportable) (number : Nat) (text : List Char) :
    c.ingestLines number (lines (n.toCall.report.toList ++ text)) =
      (c.take n.toCall.event.recording).ingestLines (number + 1) (lines text) := by
  have hone := Call.oneLine_fields h.floatsFree
  have hline : n.line.toNat ≤ 0xFFFFFFFF := Nat.le_of_lt_succ n.line.toNat_lt
  have hread := Call.read_report h.floatsFree h.depths hline
  rw [Call.report_toList, List.append_assoc, List.singleton_append,
    lines_line hone (getLast?_recordText _), ingestLines, blank_recordText, hread]
  rfl

/-- The line that reports a call adds a step with the action, the details and the values of the
call to whatever was recorded before. -/
theorem ingest_report (h : n.Reportable) (c : Collector) :
    ∃ c' s, c.ingest n.toCall.report.toList = (c', none) ∧ c'.steps = c.steps ++ [s] ∧
      s.action = n.action ∧ s.details = n.details ∧ s.bindings = .ofRows n.rows := by
  have hingest := ingestLines_report (c := c) h 1 []
  rw [List.append_nil] at hingest
  exact ⟨_, _, hingest, steps_take c _, rfl, rfl, n.bindings_event⟩

/-- Replaying the lines of calls comes to taking the recordings of their events. -/
theorem ingestLines_reports (ns : List NamedCall) (h : ∀ n ∈ ns, n.Reportable) (number : Nat) :
    c.ingestLines number (lines (ns.flatMap fun n => n.toCall.report.toList)) =
      (c.run (ns.map fun n => n.toCall.event.recording), none) := by
  induction ns generalizing c number with
  | nil => rfl
  | cons n ns ih =>
    rw [List.flatMap_cons, ingestLines_report (h n (by simp)), ih fun m hm => h m (by simp [hm])]
    rfl

/-- What a program reports about its calls is replayed without loss: each call gives one step, in
the order of the calls, with the values that its data have in the program. -/
theorem ingest_reports (denylist : Denylist) (signatures : Signatures) (ns : List NamedCall)
    (h : ∀ n ∈ ns, n.Reportable) :
    ∃ c, (new denylist signatures).ingest (ns.flatMap fun n => n.toCall.report.toList) = (c, none) ∧
      c.steps.length = ns.length ∧
      ∀ i n, ns[i]? = some n → ∃ s, c.steps[i]? = some s ∧ s.sequence = i + 1 ∧
        s.action = n.action ∧ s.details = n.details ∧ s.line = some n.line.toNat ∧
        s.bindings.keys = (n.pairs.map Prod.fst).eraseDups ∧
        ∀ k, s.bindings.get? k =
          (n.pairs.reverse.find? fun p => p.1 == k).map fun p => p.2.value := by
  refine ⟨_, ingestLines_reports ns h 1, by simp [length_steps_run, new], ?_⟩
  intro i n hi
  have hr : (ns.map fun n => n.toCall.event.recording)[i]? = some n.toCall.event.recording := by
    rw [List.getElem?_map, hi]
    rfl
  obtain ⟨c, hc, hs⟩ := getElem?_steps_run_new denylist signatures hr
  refine ⟨_, hs, hc, rfl, rfl, rfl, ?_, fun k => ?_⟩
  · exact (congrArg Table.keys n.bindings_event).trans n.keys_rows
  · exact (congrArg (Table.get? · k) n.bindings_event).trans (n.get?_rows k)

/-- A call with quotes and a line feed in its texts, a name that comes twice, an integer of more
than sixty-four bits and a list in a list. -/
def sampleCall : NamedCall :=
  { action := "say \"hi\"\n", details := "\\", function := "a::b", line := 7, backtrace := none
    pairs := [("n", .whole 0x10000000000000000), ("xs", .list [.list [.nothing], .char '\t']),
      ("n", .truth true)] }

/-- The sample call is replayed: the name that comes twice stands first and has its last value. -/
theorem ingest_report_sample : (∀ n ∈ [sampleCall], n.Reportable) ∧
    ∃ c s, (new .default .empty).ingest sampleCall.toCall.report.toList = (c, none) ∧
      c.steps = [s] ∧ s.action = "say \"hi\"\n" ∧ s.line = some 7 ∧
      s.bindings.keys = ["n", "xs"] ∧ s.bindings.get? "n" = some (.truth true) := by
  have hr : ∀ n ∈ [sampleCall], n.Reportable := by decide
  obtain ⟨c, hc, hlen, hsteps⟩ := ingest_reports .default .empty [sampleCall] hr
  obtain ⟨s, hs, -, ha, -, hl, hk, hg⟩ := hsteps 0 sampleCall rfl
  obtain ⟨t, ht⟩ := List.length_eq_one_iff.mp hlen
  obtain rfl : t = s := by simpa [ht] using hs
  exact ⟨hr, c, t, by simpa using hc, ht, ha, hl, hk.trans (by decide), hg "n"⟩

end Collector

end Retrace
