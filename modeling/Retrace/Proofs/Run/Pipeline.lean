import Retrace.Proofs.Run.Stages

/-! A run gives all steps or none: it follows its course to the point where it stops, gives the
result of that point, and leaves nothing of its folder. -/
namespace Retrace.Pipeline

open Source Text
open Workspace (Place Inside)

variable {t : Toolchain} {h : Surroundings} {source unit : String} {o : RunOptions}
  {s : Snippet} {w w' : Workspace} {root f : Folder} {p : Point} {j : Course BuildTask}
  {r : Except TraceError (List Step)}

/-! ### The stages before the folder of the run is there -/

theorem runWith_fault {fault : Fault} (hs : Snippet.read source = .error fault) :
    runWith t h source o = (.error (syntaxFailure fault), ⟨[], none, h.around⟩) := by
  unfold runWith
  rw [hs]

theorem runWith_nameless (hs : Snippet.read source = .ok s) (hu : s.unit? = none) :
    runWith t h source o = (.error .noDeclaration, ⟨[], none, h.around⟩) := by
  unfold runWith
  rw [hs]
  dsimp only
  rw [hu]

theorem runWith_homeless {e : FileError} (hs : Snippet.read source = .ok s)
    (hu : s.unit? = some unit) (ha : h.acquire = .error e) : runWith t h source o =
      (.error (.run (fileFailure "creating workspace" e)), ⟨[], none, h.around⟩) := by
  unfold runWith
  rw [hs]
  dsimp only
  rw [hu]
  dsimp only
  rw [ha]

/-- In its folder a run does what its stages do, and then releases the folder. -/
theorem runWith_entered (hs : Snippet.read source = .ok s) (hu : s.unit? = some unit)
    (ha : h.acquire = .ok (w, root))
    (hr : (stages t h s source unit o).run.run (w, ⟨[], none, root⟩) = (r, w', j)) :
    runWith t h source o = (r, { j with root := w'.release j.root }) := by
  unfold runWith
  rw [hs]
  dsimp only
  rw [hu]
  dsimp only
  rw [ha]
  dsimp only
  rw [hr]

/-! ### The whole run -/

/-- The folder of a run is made at a place of its own in the folder around. -/
theorem place_of_acquire (ha : h.acquire = .ok (w, root)) :
    Place h.around h.name ∧ Inside h.around h.name w root [] := by
  cases hp : h.parent with
  | error e => simp [Surroundings.acquire, hp] at ha
  | ok around =>
    have haround : h.around = around := by simp [Surroundings.around, hp]
    rw [haround]
    exact Place.acquire (by simpa [Surroundings.acquire, hp] using ha)

/-- With its folder made, a run stops somewhere with what its stages give. -/
theorem exists_stops_entered (hs : Snippet.read source = .ok s) (hu : s.unit? = some unit)
    (ha : h.acquire = .ok (w, root)) :
    (∃ p, Leads t h source o (.entered s unit []) p ∧
        Stops t h source o p (runWith t h source o).1) ∧
      (runWith t h source o).2.root = h.around := by
  obtain ⟨hp, hw⟩ := place_of_acquire ha
  have hstages : Follows t h source o h.around h.name (stages t h s source unit o) []
      (.entered s unit []) fun steps _ q => Stops t h source o q (.ok steps) := follows_stages hp hu
  rcases hstages with ⟨steps, g, q, hg, hl, hq⟩ | ⟨e, g, q, hg, hl, hf⟩
  · obtain ⟨w', j, hr, hw'⟩ := hg w ⟨[], none, root⟩ hw
    rw [runWith_entered hs hu ha hr]
    exact ⟨⟨q, hl, hq⟩, hw'.release hp⟩
  · obtain ⟨w', j, hr, hw'⟩ := hg w ⟨[], none, root⟩ hw
    rw [runWith_entered hs hu ha hr]
    exact ⟨⟨q, hl, .failed hf⟩, hw'.release hp⟩

/-- A run comes to a point where it stops with its result, and then the folder around is as it was
before. -/
theorem exists_stops_runWith (t : Toolchain) (h : Surroundings) (source : String)
    (o : RunOptions) :
    (∃ p, Leads t h source o .begun p ∧ Stops t h source o p (runWith t h source o).1) ∧
      (runWith t h source o).2.root = h.around := by
  cases hs : Snippet.read source with
  | error fault =>
    rw [runWith_fault hs]
    exact ⟨⟨_, .refl, .failed (.parse hs)⟩, rfl⟩
  | ok s =>
    have hparsed : Leads t h source o .begun (.parsed s) := .single (.parse hs)
    cases hu : s.unit? with
    | none =>
      rw [runWith_nameless hs hu]
      exact ⟨⟨_, hparsed, .failed (.name hu)⟩, rfl⟩
    | some unit =>
      have hnamed : Leads t h source o .begun (.named s unit) := hparsed.tail (.name hu)
      cases ha : h.acquire with
      | error e =>
        rw [runWith_homeless hs hu ha]
        exact ⟨⟨_, hnamed, .failed (.enter ha)⟩, rfl⟩
      | ok made =>
        obtain ⟨w, root⟩ := made
        obtain ⟨⟨p, hl, hp⟩, hroot⟩ := exists_stops_entered (t := t) (o := o) hs hu ha
        exact ⟨⟨p, (hnamed.tail (.enter ha)).trans hl, hp⟩, hroot⟩

theorem runWith_eq_iff : (runWith t h source o).1 = r ↔
    ∃ p, Leads t h source o .begun p ∧ Stops t h source o p r := by
  obtain ⟨⟨p, hl, hp⟩, -⟩ := exists_stops_runWith t h source o
  constructor
  · rintro rfl
    exact ⟨p, hl, hp⟩
  · rintro ⟨q, hl', hq⟩
    exact hp.unique_of_leads hl hl' hq

/-- A run gives steps exactly if all of its stages go well up to the end of the program and all that
the program reported is events, and then it gives the steps of all these events. It fails exactly
with the failure of the first stage that fails. Nothing of its folder is left in any case. -/
theorem runWith_all_or_nothing (t : Toolchain) (h : Surroundings) (source : String)
    (o : RunOptions) :
    (∀ steps, (runWith t h source o).1 = .ok steps ↔
      ∃ s f es, Leads t h source o .begun (.finished s f) ∧ Reported h f es ∧
        steps = Collector.stepsOf s.signatures es ∧ Collector.Renders es steps) ∧
    (∀ e, (runWith t h source o).1 = .error e ↔
      ∃ p, Leads t h source o .begun p ∧ Fails t h source o p e) ∧
    (runWith t h source o).2.root = h.around := by
  refine ⟨fun steps => ?_, fun e => ?_, (exists_stops_runWith t h source o).2⟩
  · rw [runWith_eq_iff]
    constructor
    · rintro ⟨p, hl, hp⟩
      cases hp with
      | replayed hr => exact ⟨_, _, _, hl, hr, rfl, Collector.renders_stepsOf _ _⟩
    · rintro ⟨s, f, es, hl, hr, rfl, -⟩
      exact ⟨_, hl, .replayed hr⟩
  · rw [runWith_eq_iff]
    constructor
    · rintro ⟨p, hl, hp⟩
      cases hp with
      | failed hf => exact ⟨p, hl, hf⟩
    · rintro ⟨p, hl, hf⟩
      exact ⟨p, hl, .failed hf⟩

end Retrace.Pipeline
