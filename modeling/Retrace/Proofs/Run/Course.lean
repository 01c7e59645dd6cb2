import Mathlib.Logic.Relation
import Retrace.Proofs.Trace.Events
import Retrace.Run.Pipeline

/-! The points that a run comes to one after another, and what makes it fail at each of them. The
folders here are the entries of the folder of the run. -/
namespace Retrace

open Source Text

/-- Writes a file among the entries of the folder of a run. -/
def Surroundings.put (h : Surroundings) (file : String) (text : List Char) (f : Folder) :
    Except FileError Folder :=
  match h.hindrance file with
  | some e => .error e
  | none => f.write [file] (text.map some)

namespace Pipeline

/-- A point of a run, with what the run knows there. -/
inductive Point where
  | begun
  | parsed (s : Snippet)
  | named (s : Snippet) (unit : String)
  | entered (s : Snippet) (unit : String) (f : Folder)
  | written (s : Snippet) (unit : String) (f : Folder)
  | supplied (s : Snippet) (unit : String) (f : Folder)
  | linked (s : Snippet) (unit library : String) (f : Folder)
  | built (s : Snippet) (program : String) (f : Folder)
  | opened (s : Snippet) (program : String) (f : Folder)
  | ready (s : Snippet) (program : String) (f : Folder)
  | finished (s : Snippet) (f : Folder)

/-- The order to run the built program. -/
def order (o : RunOptions) (program : String) : LaunchRequest :=
  ⟨program, eventsFile, o.timeout, o.backtraces⟩

def libraryTask : BuildTask := .library Support.libraryName Support.fileName

def programTask (unit library : String) : BuildTask :=
  .program (unit ++ ".rs") unit [(Support.libraryName, library)]

variable {t : Toolchain} {h : Surroundings} {source : String} {o : RunOptions} {p q q' : Point}
  {e e' : TraceError} {r r' : Except TraceError (List Step)}

/-- A stage goes well. -/
inductive Advances (t : Toolchain) (h : Surroundings) (source : String) (o : RunOptions) :
    Point → Point → Prop where
  | parse {s} : Snippet.read source = .ok s → Advances t h source o .begun (.parsed s)
  | name {s unit} : s.unit? = some unit → Advances t h source o (.parsed s) (.named s unit)
  | enter {s unit w root} : h.acquire = .ok (w, root) →
      Advances t h source o (.named s unit) (.entered s unit [])
  | write {s unit f g} : h.put (unit ++ ".rs") (withEntryPoint s source unit).toList f = .ok g →
      Advances t h source o (.entered s unit f) (.written s unit g)
  | supply {s unit f g} : h.put Support.fileName Support.source.toList f = .ok g →
      Advances t h source o (.written s unit f) (.supplied s unit g)
  | link {s unit library f g} : t libraryTask f = (.ok library, g) →
      Advances t h source o (.supplied s unit f) (.linked s unit library g)
  | build {s unit library program f g} : t (programTask unit library) f = (.ok program, g) →
      Advances t h source o (.linked s unit library f) (.built s program g)
  | openOutput {s program f g} : h.put outputFile [] f = .ok g →
      Advances t h source o (.built s program f) (.opened s program g)
  | openErrors {s program f g} : h.put errorFile [] f = .ok g →
      Advances t h source o (.opened s program f) (.ready s program g)
  | finish {s program f g} : h.launch (order o program) f = (.ended (.code 0), g) →
      Advances t h source o (.ready s program f) (.finished s g)

/-- A stage fails, and the run with it. -/
inductive Fails (t : Toolchain) (h : Surroundings) (source : String) (o : RunOptions) :
    Point → TraceError → Prop where
  | parse {fault} : Snippet.read source = .error fault →
      Fails t h source o .begun (syntaxFailure fault)
  | name {s} : s.unit? = none → Fails t h source o (.parsed s) .noDeclaration
  | enter {s unit e} : h.acquire = .error e →
      Fails t h source o (.named s unit) (.run (fileFailure "creating workspace" e))
  | write {s unit f e} : h.put (unit ++ ".rs") (withEntryPoint s source unit).toList f = .error e →
      Fails t h source o (.entered s unit f) (.run (fileFailure "writing snippet" e))
  | supply {s unit f e} : h.put Support.fileName Support.source.toList f = .error e →
      Fails t h source o (.written s unit f) (.run (fileFailure "writing support crate" e))
  | link {s unit f g e} : t libraryTask f = (.error e, g) →
      Fails t h source o (.supplied s unit f) e
  | build {s unit library f g e} : t (programTask unit library) f = (.error e, g) →
      Fails t h source o (.linked s unit library f) e
  | openOutput {s program f e} : h.put outputFile [] f = .error e →
      Fails t h source o (.built s program f) (.run (fileFailure "creating stdout log" e))
  | openErrors {s program f e} : h.put errorFile [] f = .error e →
      Fails t h source o (.opened s program f) (.run (fileFailure "creating stderr log" e))
  | unstarted {s program f g e} : h.launch (order o program) f = (.unstarted e, g) →
      Fails t h source o (.ready s program f) (.run (fileFailure "spawning snippet" e))
  | lost {s program f g e} : h.launch (order o program) f = (.lost e, g) →
      Fails t h source o (.ready s program f) (.run (fileFailure "waiting for snippet" e))
  | overdue {s program f g} : h.launch (order o program) f = (.overdue, g) →
      Fails t h source o (.ready s program f)
        (.run (.timeout (o.timeout.getD 0) (stderrIn g)))
  | ended {s program f g exit} : h.launch (order o program) f = (.ended exit, g) → exit ≠ .code 0 →
      Fails t h source o (.ready s program f) (.run (.ofExit exit (stderrIn g)))
  | unreadable {s f e} : h.text eventsFile f = .error e → e ≠ .notFound →
      Fails t h source o (.finished s f) (.run (fileFailure "reading event file" e))
  | malformed {s f text n line why} : h.text eventsFile f = .ok text →
      Event.FirstMalformed (lines text) n line why →
      Fails t h source o (.finished s f) (.run (malformedLine (n + 1) why line))

/-- A run goes on from one point to another. -/
abbrev Leads (t : Toolchain) (h : Surroundings) (source : String) (o : RunOptions) :
    Point → Point → Prop :=
  Relation.ReflTransGen (Advances t h source o)

/-- The program reported these events: the file for them holds them, or there is no file and there
are none. -/
inductive Reported (h : Surroundings) (f : Folder) : List Event → Prop where
  | nothing : h.text eventsFile f = .error .notFound → Reported h f []
  | events {text es} : h.text eventsFile f = .ok text → Event.Written (lines text) es →
      Reported h f es

/-- A run stops at a point: it fails, or the program has finished and its events are known. -/
inductive Stops (t : Toolchain) (h : Surroundings) (source : String) (o : RunOptions) :
    Point → Except TraceError (List Step) → Prop where
  | failed {p : Point} {e : TraceError} : Fails t h source o p e → Stops t h source o p (.error e)
  | replayed {s f es} : Reported h f es →
      Stops t h source o (.finished s f) (.ok (Collector.stepsOf s.signatures es))

/-! ### A run goes one way only -/

theorem Advances.unique (hq : Advances t h source o p q) (hq' : Advances t h source o p q') :
    q = q' := by
  cases hq <;> cases hq' <;> simp_all

theorem Fails.not_advances (hf : Fails t h source o p e) : ¬ Advances t h source o p q := by
  intro hq
  cases hf <;> cases hq <;> simp_all

/-- What the replay of the event file comes to when the events are known. -/
theorem Reported.ingestText {f : Folder} {es : List Event} (hr : Reported h f es) (c : Collector) :
    ingestText c (h.text eventsFile f) = (c.run (es.map Event.recording), none) := by
  cases hr with
  | nothing ht =>
    rw [ht]
    rfl
  | events ht hw =>
    rw [ht]
    exact Collector.ingestLines_written hw 1

/-- What the replay of the event file comes to when the run fails with it. -/
theorem Fails.ingestText {s : Snippet} {f : Folder} (hf : Fails t h source o (.finished s f) e)
    (c : Collector) : (ingestText c (h.text eventsFile f)).2.map TraceError.run = some e := by
  cases hf with
  | unreadable ht hne =>
    rename_i e
    rw [ht]
    cases e <;> first | rfl | exact absurd rfl hne
  | malformed ht hm =>
    rw [ht, ingestText, Collector.ingest, Collector.ingestLines_malformed hm, Nat.add_comm 1]
    rfl

theorem reported_or_fails (t : Toolchain) (h : Surroundings) (source : String) (o : RunOptions)
    (s : Snippet) (f : Folder) :
    (∃ es, Reported h f es) ∨ ∃ e, Fails t h source o (.finished s f) e := by
  cases ht : h.text eventsFile f with
  | error e =>
    by_cases he : e = .notFound
    · exact .inl ⟨[], .nothing (he ▸ ht)⟩
    · exact .inr ⟨_, .unreadable ht he⟩
  | ok text =>
    rcases Event.written_or_firstMalformed (lines text) with ⟨es, hw⟩ | ⟨n, line, why, hm⟩
    · exact .inl ⟨es, .events ht hw⟩
    · exact .inr ⟨_, .malformed ht hm⟩

theorem Fails.unique (hf : Fails t h source o p e) (hf' : Fails t h source o p e') : e = e' := by
  cases hp : p with
  | finished s f =>
    subst hp
    have hi := hf.ingestText (.new .default s.signatures)
    rw [hf'.ingestText] at hi
    exact (Option.some.inj hi).symm
  | _ =>
    subst hp
    cases hf <;> cases hf' <;> simp_all

theorem Stops.not_advances (hs : Stops t h source o p r) : ¬ Advances t h source o p q := by
  cases hs with
  | failed hf => exact hf.not_advances
  | replayed hr =>
    intro hq
    cases hq

theorem Stops.unique (hs : Stops t h source o p r) (hs' : Stops t h source o p r') : r = r' := by
  cases hs with
  | failed hf =>
    cases hs' with
    | failed hf' => rw [hf.unique hf']
    | replayed hr =>
      have hi := hf.ingestText (.new .default .empty)
      simp [hr.ingestText] at hi
  | replayed hr =>
    cases hs' with
    | failed hf =>
      have hi := hf.ingestText (.new .default .empty)
      simp [hr.ingestText] at hi
    | replayed hr' =>
      rename_i s _ _ _
      have hi := hr.ingestText (.new .default s.signatures)
      rw [hr'.ingestText] at hi
      exact congrArg (fun i => Except.ok i.1.steps) hi.symm

/-- No point comes after one where a run stops. -/
theorem Stops.eq_of_leads (hs : Stops t h source o p r)
    (hpq : Leads t h source o p q) : p = q := by
  rcases hpq.cases_head with rfl | ⟨x, hx, -⟩
  · rfl
  · exact absurd hx hs.not_advances

/-- A run stops with one result at most. -/
theorem Stops.unique_of_leads {x : Point} (hp : Leads t h source o x p)
    (hq : Leads t h source o x q) (hs : Stops t h source o p r) (hs' : Stops t h source o q r') :
    r = r' := by
  have hun : Relator.RightUnique (Advances t h source o) := fun _ _ _ ha hb => ha.unique hb
  rcases Relation.ReflTransGen.total_of_right_unique hun hp hq with hpq | hqp
  · obtain rfl := hs.eq_of_leads hpq
    exact hs.unique hs'
  · obtain rfl := hs'.eq_of_leads hqp
    exact hs.unique hs'

end Pipeline

end Retrace
