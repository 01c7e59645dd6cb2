import Retrace.Proofs.Trace.Run
import Retrace.Trace.Replay

/-! A replay takes the recordings of all events that its lines hold, or fails at the first line that
holds something else. -/
namespace Retrace

open Text

namespace Event

variable {l line : List Char} {ls : List (List Char)} {e : Event} {es : List Event}
  {why : String} {n : Nat}

/-- The lines hold these events in this order, and nothing else but blanks. -/
def Written (ls : List (List Char)) (es : List Event) : Prop :=
  (ls.filter fun l => !blank l).map Event.read.runText = es.map .ok

/-- After `n` lines of events and blanks there is one that holds something else. -/
def FirstMalformed (ls : List (List Char)) (n : Nat) (line : List Char) (why : String) : Prop :=
  ∃ good es rest, ls = good ++ line :: rest ∧ good.length = n ∧ Written good es ∧
    blank line = false ∧ Event.read.runText line = .error why

theorem written_blank (hb : blank l = true) (h : Written ls es) : Written (l :: ls) es := by
  simpa [Written, hb] using h

theorem written_event (hb : blank l = false) (hr : Event.read.runText l = .ok e)
    (h : Written ls es) : Written (l :: ls) (e :: es) := by
  simpa [Written, hb, hr] using h

/-- The first line of events and blanks is a blank one, or holds the first event. -/
theorem Written.head (h : Written (l :: ls) es) : (blank l = true ∧ Written ls es) ∨
    ∃ e es', blank l = false ∧ Event.read.runText l = .ok e ∧ es = e :: es' ∧ Written ls es' := by
  cases hb : blank l with
  | true => exact .inl ⟨rfl, by simpa [Written, hb] using h⟩
  | false =>
    cases es with
    | nil => simp [Written, hb] at h
    | cons e es =>
      obtain ⟨hr, ht⟩ : Event.read.runText l = .ok e ∧ Written ls es := by
        simpa [Written, hb] using h
      exact .inr ⟨e, es, rfl, hr, rfl, ht⟩

/-- Lines hold events and blanks only, or one of them is the first that holds something else. -/
theorem written_or_firstMalformed (ls : List (List Char)) :
    (∃ es, Written ls es) ∨ ∃ n line why, FirstMalformed ls n line why := by
  induction ls with
  | nil => exact .inl ⟨[], rfl⟩
  | cons l ls ih =>
    cases hb : blank l with
    | true =>
      rcases ih with ⟨es, h⟩ | ⟨n, line, why, good, es, rest, rfl, hn, h, hm⟩
      · exact .inl ⟨es, written_blank hb h⟩
      · exact .inr ⟨n + 1, line, why, l :: good, es, rest, rfl, by simp [hn], written_blank hb h, hm⟩
    | false =>
      cases hr : Event.read.runText l with
      | error why => exact .inr ⟨0, l, why, [], [], ls, rfl, rfl, rfl, hb, hr⟩
      | ok e =>
        rcases ih with ⟨es, h⟩ | ⟨n, line, why, good, es, rest, rfl, hn, h, hm⟩
        · exact .inl ⟨e :: es, written_event hb hr h⟩
        · exact .inr ⟨n + 1, line, why, l :: good, e :: es, rest, rfl, by simp [hn],
            written_event hb hr h, hm⟩

end Event

namespace Collector

variable {c : Collector} {ls good : List (List Char)} {es : List Event} {line : List Char}
  {why : String} {n : Nat}

/-- The lines of events are replayed one after another, before what comes after them. -/
theorem ingestLines_append (h : Event.Written ls es) (number : Nat) (rest : List (List Char)) :
    c.ingestLines number (ls ++ rest) =
      (c.run (es.map Event.recording)).ingestLines (number + ls.length) rest := by
  induction ls generalizing c es number with
  | nil =>
    obtain rfl : es = [] := by simpa [Event.Written, eq_comm] using h
    rfl
  | cons l ls ih =>
    have hlen : number + (l :: ls).length = number + 1 + ls.length := by
      rw [List.length_cons]
      omega
    rcases h.head with ⟨hb, ht⟩ | ⟨e, es', hb, hr, rfl, ht⟩
    · rw [List.cons_append, ingestLines, if_pos hb, ih ht, hlen]
    · rw [List.cons_append, ingestLines, hb, hr, hlen]
      exact ih ht (number + 1)

theorem ingestLines_written (h : Event.Written ls es) (number : Nat) :
    c.ingestLines number ls = (c.run (es.map Event.recording), none) := by
  have happend := ingestLines_append (c := c) h number []
  rw [List.append_nil] at happend
  exact happend

/-- The first line that is no event ends the replay, after the recordings of the lines before it. -/
theorem ingestLines_stopped (hw : Event.Written good es) (hb : blank line = false)
    (hr : Event.read.runText line = .error why) (number : Nat) (rest : List (List Char)) :
    c.ingestLines number (good ++ line :: rest) =
      (c.run (es.map Event.recording),
        some (malformedLine (number + good.length) why line)) := by
  rw [ingestLines_append hw, ingestLines, hb, hr]
  rfl

theorem ingestLines_malformed (h : Event.FirstMalformed ls n line why) (number : Nat) :
    (c.ingestLines number ls).2 = some (malformedLine (number + n) why line) := by
  obtain ⟨good, es, rest, rfl, rfl, hw, hb, hr⟩ := h
  rw [ingestLines_stopped hw hb hr]

/-- The steps of a run that records these events. -/
def stepsOf (t : Signatures) (es : List Event) : List Step :=
  ((new .default t).run (es.map Event.recording)).steps

/-- The steps are those of the events: one for each, in their order and numbered from one on, with
what the event reports. -/
structure Renders (es : List Event) (steps : List Step) : Prop where
  length : steps.length = es.length
  step : ∀ i e, es[i]? = some e → ∃ s, steps[i]? = some s ∧ s.sequence = i + 1 ∧
    s.action = e.action ∧ s.details = e.details ∧ s.bindings = Value.bindings e.values

theorem renders_stepsOf (t : Signatures) (es : List Event) : Renders es (stepsOf t es) := by
  refine ⟨by simp [stepsOf, length_steps_run, new], fun i e hi => ?_⟩
  have hr : (es.map Event.recording)[i]? = some e.recording := by rw [List.getElem?_map, hi]; rfl
  obtain ⟨c, hc, hs⟩ := getElem?_steps_run_new .default t hr
  exact ⟨_, hs, hc, rfl, rfl, rfl⟩

end Collector

end Retrace
