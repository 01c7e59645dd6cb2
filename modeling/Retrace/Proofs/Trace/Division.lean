import Retrace.Proofs.Trace.Events

/-! A replay may be divided at the end of any line: the rest of the text is replayed into what the
lines before it have left, and a line that is no event ends the replay where it stands. -/
namespace Retrace.Collector

open Text

variable {c c' : Collector} {a : List Char} {ls : List (List Char)} {es : List Event}
  {line : List Char} {why : String} {number : Nat} {f : RunFailure}

/-- Lines are replayed after what came before them, unless that has failed. -/
theorem ingestLines_append_eq (c : Collector) (number : Nat) (ls ms : List (List Char)) :
    c.ingestLines number (ls ++ ms) =
      match c.ingestLines number ls with
      | (c', none) => c'.ingestLines (number + ls.length) ms
      | (c', some f) => (c', some f) := by
  induction ls generalizing c number with
  | nil => rfl
  | cons l ls ih =>
    have hlen : number + (l :: ls).length = number + 1 + ls.length := by
      rw [List.length_cons]
      omega
    rw [List.cons_append, ingestLines, ingestLines, hlen]
    split
    · exact ih c (number + 1)
    · cases Event.read.runText l with
      | ok e => exact ih (c.recordEvent e) (number + 1)
      | error why => rfl

/-- The number of the first line matters for the number in the failure only. -/
theorem ingestLines_numbered (c : Collector) (ls : List (List Char)) :
    (∃ c', ∀ number, c.ingestLines number ls = (c', none)) ∨
      ∃ c' n line why, Event.FirstMalformed ls n line why ∧
        ∀ number, c.ingestLines number ls = (c', some (malformedLine (number + n) why line)) := by
  rcases Event.written_or_firstMalformed ls with ⟨es, hw⟩ | ⟨n, line, why, hm⟩
  · exact Or.inl ⟨_, ingestLines_written hw⟩
  · obtain ⟨good, es, rest, rfl, rfl, hw, hb, hr⟩ := hm
    exact Or.inr ⟨_, _, line, why, ⟨good, es, rest, rfl, rfl, hw, hb, hr⟩,
      fun number => ingestLines_stopped hw hb hr number rest⟩

/-- A replay of two texts, of which the first one ends with a line, is a replay of the first one and
then, unless that fails, of the second one into what the first one has left; the number of a
malformed line counts the lines of both. So the first line of a text that is neither blank nor an
event leaves the recordings of the events before it, and nothing else. -/
theorem ingest_divides (c : Collector) (a b : List Char)
    (ha : a = [] ∨ a.getLast? = some '\n') :
    (∀ c' f, c.ingest a = (c', some f) → c.ingest (a ++ b) = (c', some f)) ∧
    (∀ c', c.ingest a = (c', none) →
      (∀ c'', c'.ingest b = (c'', none) → c.ingest (a ++ b) = (c'', none)) ∧
      ∀ c'' f, c'.ingest b = (c'', some f) → ∃ n line why,
        Event.FirstMalformed (lines b) n line why ∧ f = malformedLine (1 + n) why line ∧
        c.ingest (a ++ b) = (c'', some (malformedLine (1 + (lines a).length + n) why line))) ∧
    ∀ text good line rest es why, lines text = good ++ line :: rest → Event.Written good es →
      blank line = false → Event.read.runText line = .error why →
      c.ingest text = (c.run (es.map Event.recording),
        some ⟨.protocol, "malformed event on line " ++ toString (good.length + 1) ++ ": " ++ why,
          String.ofList line⟩) := by
  have hsplit : c.ingest (a ++ b) =
      match c.ingest a with
      | (c', none) => c'.ingestLines (1 + (lines a).length) (lines b)
      | (c', some f) => (c', some f) := by
    rw [ingest, lines_append ha, ingestLines_append_eq]
    rfl
  refine ⟨fun c' f hf => ?_, fun c' hc => ?_, fun text good line rest es why ht hw hb hr => ?_⟩
  · rw [hsplit, hf]
  · simp only [hsplit, hc]
    rcases ingestLines_numbered c' (lines b) with ⟨c'', hb⟩ | ⟨c'', n, line, why, hm, hb⟩
    · have hdone : c'.ingest b = (c'', none) := hb 1
      rw [hdone, hb]
      exact ⟨fun _ h => h, fun _ _ h => absurd (congrArg Prod.snd h) (by simp)⟩
    · have hstopped : c'.ingest b = (c'', some (malformedLine (1 + n) why line)) := hb 1
      rw [hstopped, hb]
      refine ⟨fun _ h => absurd (congrArg Prod.snd h) (by simp), fun _ f h => ?_⟩
      cases h
      exact ⟨n, line, why, hm, rfl, rfl⟩
  · rw [ingest, ht, ingestLines_stopped hw hb hr, Nat.add_comm 1]
    rfl

def sampleEvent : List Char := "\x7b\"action\":\"one\"\x7d".toList

/-- An event on a line that ends with a carriage return and a line feed, and a blank line. -/
def sampleFront : List Char := sampleEvent ++ "\r\n \n".toList

/-- A line that is no event before one that is. -/
def sampleBack : List Char := "oops\n".toList ++ sampleEvent

/-- The third line of the two texts together is malformed, and only the first event is recorded. -/
theorem ingest_divides_sample : (sampleFront = [] ∨ sampleFront.getLast? = some '\n') ∧
    ∃ e, Event.read.runText sampleEvent = .ok e ∧ e.action = "one" ∧
      (new .default .empty).ingest (sampleFront ++ sampleBack) =
        ((new .default .empty).run [e.recording], some ⟨.protocol,
          "malformed event on line 3: expected value at line 1 column 1", "oops"⟩) := by
  have ha : sampleFront = [] ∨ sampleFront.getLast? = some '\n' := Or.inr (by decide +kernel)
  have hread : (Event.read.runText sampleEvent).toOption.any (·.action == "one") = true := by
    decide +kernel
  obtain ⟨-, -, hstop⟩ := ingest_divides (new .default .empty) sampleFront sampleBack ha
  cases he : Event.read.runText sampleEvent with
  | error why => rw [he] at hread; cases hread
  | ok e =>
    have hw : Event.Written [sampleEvent, [' ']] [e] :=
      Event.written_event (by decide +kernel) he (Event.written_blank (by decide) rfl)
    have hlines : lines (sampleFront ++ sampleBack) =
        [sampleEvent, [' ']] ++ "oops".toList :: [sampleEvent] := by decide +kernel
    have hoops : Event.read.runText "oops".toList =
        .error "expected value at line 1 column 1" := by rfl
    rw [he] at hread
    exact ⟨ha, e, rfl, beq_iff_eq.mp hread,
      hstop _ _ _ _ _ _ hlines hw (by decide) hoops⟩

end Retrace.Collector
