import Retrace.Proofs.Run.Course
import Retrace.Proofs.Run.Workspace

/-! What the stages of a run do to the entries of its folder. Each one leads from point to point of
the course of the run, or fails where the course has a failure. -/
namespace Retrace.Pipeline

open Source Text
open Workspace (Place Inside)

variable {α β : Type} {root : Folder} {name file what : String} {f g f' : Folder} {a : α}
  {e : TraceError} {r : Except TraceError β} {m : Stage α} {k : α → Stage β} {text : List Char}
  {t : Toolchain} {h : Surroundings} {source : String} {o : RunOptions} {p : Point}

/-- With the entries `f` in the folder of the run a stage gives `r` and leaves the entries `f'`. -/
def Gives (root : Folder) (name : String) (m : Stage α) (f : Folder) (r : Except TraceError α)
    (f' : Folder) : Prop :=
  ∀ w (j : Course BuildTask), Inside root name w j.root f →
    ∃ w' j', m.run.run (w, j) = (r, w', j') ∧ Inside root name w' j'.root f'

theorem gives_pure (a : α) : Gives root name (pure a) f (.ok a) f := fun w j hw => ⟨w, j, rfl, hw⟩

theorem gives_throw (e : TraceError) : Gives root name (throw e : Stage α) f (.error e) f :=
  fun w j hw => ⟨w, j, rfl, hw⟩

theorem Gives.bind (hm : Gives root name m f (.ok a) g) (hk : Gives root name (k a) g r f') :
    Gives root name (m >>= k) f r f' := by
  intro w j hw
  obtain ⟨w', j', hrun, hw'⟩ := hm w j hw
  obtain ⟨w'', j'', hrun', hw''⟩ := hk w' j' hw'
  refine ⟨w'', j'', ?_, hw''⟩
  rw [ExceptT.run_bind, StateT.run_bind, hrun]
  exact hrun'

theorem Gives.bind_error (hm : Gives root name m f (.error e) g) :
    Gives root name (m >>= k) f (.error e) g := by
  intro w j hw
  obtain ⟨w', j', hrun, hw'⟩ := hm w j hw
  refine ⟨w', j', ?_, hw'⟩
  rw [ExceptT.run_bind, StateT.run_bind, hrun]
  rfl

theorem gives_track (hf : Plain file) : Gives root name (track file) f (.ok ()) f :=
  fun w j hw => ⟨w.track file, j, rfl, hw.track hf⟩

theorem gives_entries (hp : Place root name) : Gives root name entries f (.ok f) f := by
  intro w j hw
  refine ⟨w, j, ?_, hw⟩
  have he := hw.entries? hp
  show (Except.ok ((w.entries? j.root).getD []), w, j) = _
  rw [he]
  rfl

theorem gives_setEntries (hp : Place root name) (g : Folder) :
    Gives root name (setEntries g) f (.ok ()) g :=
  fun w _ hw => ⟨w, _, rfl, hw.replace hp g⟩

/-- Notes something about the course of the run. -/
def noted (note : Course BuildTask → Course BuildTask) : Stage Unit :=
  modify fun (w, j) => (w, note j)

/-- What is noted about the course changes no entries. -/
theorem gives_noted (note : Course BuildTask → Course BuildTask)
    (hn : ∀ j, (note j).root = j.root) : Gives root name (noted note) f (.ok ()) f :=
  fun w j hw => ⟨w, note j, rfl, by rw [hn]; exact hw⟩

theorem run_get_bind (k : Workspace × Course BuildTask → Stage β)
    (state : Workspace × Course BuildTask) :
    (get >>= k : Stage β).run.run state = (k state).run.run state :=
  rfl

theorem write_eq {w : Workspace} {current : Folder} (hp : Place root name) (hf : Plain file)
    (hw : Inside root name w current f) (h : Surroundings) (text : List Char) :
    h.write w file (text.map some) current = (h.put file text f).map (Workspace.put root name) := by
  unfold Surroundings.write Surroundings.put
  cases h.hindrance file with
  | some e => rfl
  | none => exact hw.write hp hf _

/-- Writing a file of the workspace puts it among the entries, or fails and leaves them. -/
theorem gives_writeFile (hp : Place root name) (hf : Plain file) (h : Surroundings)
    (what : String) (text : List Char) (f : Folder) :
    (∃ g, h.put file text f = .ok g ∧ Gives root name (writeFile h what file text) f (.ok ()) g) ∨
      ∃ e, h.put file text f = .error e ∧
        Gives root name (writeFile h what file text) f (.error (.run (fileFailure what e))) f := by
  cases hput : h.put file text f with
  | ok g =>
    refine .inl ⟨g, rfl, (gives_track hf).bind fun w j hw => ?_⟩
    have hwrite := write_eq hp hf hw h text
    rw [hput] at hwrite
    refine ⟨w, { j with root := Workspace.put root name g }, ?_, hw.path, rfl, hw.tracked⟩
    rw [run_get_bind]
    simp only [hwrite]
    rfl
  | error e =>
    refine .inr ⟨e, rfl, (gives_track hf).bind fun w j hw => ⟨w, j, ?_, hw⟩⟩
    have hwrite := write_eq hp hf hw h text
    rw [hput] at hwrite
    rw [run_get_bind]
    simp only [hwrite]
    rfl

theorem gives_build {task : BuildTask} (hp : Place root name) (hf : Plain task.output)
    (t : Toolchain) (f : Folder) : Gives root name (build t task) f (t task f).1 (t task f).2 := by
  refine (gives_track hf).bind ((gives_entries hp).bind ?_)
  cases ht : t task f with
  | mk built left =>
    have hnote : Gives root name (noted fun j => { j with builds := j.builds ++ [(task, f)] }) f
        (.ok ()) f := gives_noted _ fun _ => rfl
    refine hnote.bind ((gives_setEntries hp left).bind ?_)
    cases built with
    | ok path => exact gives_pure path
    | error e => exact gives_throw e

/-! ### Stages and the course of the run -/

/-- From a point on a stage leads to a point that is right for what it gives, or the run fails. -/
def Follows (t : Toolchain) (h : Surroundings) (source : String) (o : RunOptions) (root : Folder)
    (name : String) (m : Stage α) (f : Folder) (p : Point) (right : α → Folder → Point → Prop) :
    Prop :=
  (∃ a g q, Gives root name m f (.ok a) g ∧ Leads t h source o p q ∧ right a g q) ∨
    ∃ e g q, Gives root name m f (.error e) g ∧ Leads t h source o p q ∧ Fails t h source o q e

variable {mid : α → Folder → Point → Prop} {right : β → Folder → Point → Prop}

theorem Follows.bind (hm : Follows t h source o root name m f p mid)
    (hk : ∀ a g q, mid a g q → Follows t h source o root name (k a) g q right) :
    Follows t h source o root name (m >>= k) f p right := by
  rcases hm with ⟨a, g, q, hg, hl, hq⟩ | ⟨e, g, q, hg, hl, hf⟩
  · rcases hk a g q hq with ⟨b, g', q', hg', hl', hq'⟩ | ⟨e, g', q', hg', hl', hf⟩
    · exact .inl ⟨b, g', q', hg.bind hg', hl.trans hl', hq'⟩
    · exact .inr ⟨e, g', q', hg.bind hg', hl.trans hl', hf⟩
  · exact .inr ⟨e, g, q, hg.bind_error, hl, hf⟩

/-- A stage that only looks around or takes notes leaves the run where it is. -/
theorem Gives.follows (hm : Gives root name m f (.ok a) g)
    (hk : Follows t h source o root name (k a) g p right) :
    Follows t h source o root name (m >>= k) f p right := by
  have hf : Follows t h source o root name m f p fun a' g' q => a' = a ∧ g' = g ∧ q = p :=
    .inl ⟨a, g, p, hm, .refl, rfl, rfl, rfl⟩
  refine hf.bind ?_
  rintro _ _ _ ⟨rfl, rfl, rfl⟩
  exact hk

theorem follows_throw (hf : Fails t h source o p e) :
    Follows t h source o root name (throw e) f p right :=
  .inr ⟨e, f, p, gives_throw e, .refl, hf⟩

theorem follows_writeFile {next : Folder → Point} (hp : Place root name) (hf : Plain file)
    (hok : ∀ {g}, h.put file text f = .ok g → Advances t h source o p (next g))
    (herror : ∀ {e}, h.put file text f = .error e →
      Fails t h source o p (.run (fileFailure what e))) :
    Follows t h source o root name (writeFile h what file text) f p fun _ g q => q = next g := by
  rcases gives_writeFile hp hf h what text f with ⟨g, hput, hg⟩ | ⟨e, hput, hg⟩
  · exact .inl ⟨(), g, next g, hg, .single (hok hput), rfl⟩
  · exact .inr ⟨_, f, p, hg, .refl, herror hput⟩

theorem follows_build {task : BuildTask} {next : String → Folder → Point} (hp : Place root name)
    (hf : Plain task.output)
    (hok : ∀ {path g}, t task f = (.ok path, g) → Advances t h source o p (next path g))
    (herror : ∀ {e g}, t task f = (.error e, g) → Fails t h source o p e) :
    Follows t h source o root name (build t task) f p fun path g q => q = next path g := by
  have hg := gives_build hp hf t f
  cases ht : t task f with
  | mk built left =>
    rw [ht] at hg
    cases built with
    | ok path => exact .inl ⟨path, left, next path left, hg, .single (hok ht), rfl⟩
    | error e => exact .inr ⟨e, left, p, hg, .refl, herror ht⟩

theorem isSuccess_eq_false {exit : Exit} (he : exit ≠ .code 0) : exit.isSuccess = false := by
  unfold Exit.isSuccess
  split
  · exact absurd rfl he
  · rfl

/-- The program runs after the files for what it prints are there. -/
theorem follows_launch (hp : Place root name) (s : Snippet) (program : String) (f : Folder) :
    Follows t h source o root name (launch h (order o program)) f (.built s program f)
      fun _ g q => q = .finished s g := by
  have houtput : Plain outputFile := by constructor <;> decide
  have herrors : Plain errorFile := by constructor <;> decide
  refine (gives_track houtput).follows ((gives_track herrors).follows ?_)
  refine (follows_writeFile hp houtput .openOutput .openOutput).bind ?_
  rintro _ f _ rfl
  refine (follows_writeFile hp herrors .openErrors .openErrors).bind ?_
  rintro _ f _ rfl
  refine (gives_entries hp).follows ?_
  cases hrun : h.launch (order o program) f with
  | mk outcome left =>
    refine (gives_setEntries hp left).follows ?_
    cases outcome with
    | unstarted e => exact follows_throw (.unstarted hrun)
    | lost e => exact follows_throw (.lost hrun)
    | overdue => exact follows_throw (.overdue hrun)
    | ended exit =>
      have hnote : Gives root name (noted fun j => { j with finished := some (order o program) })
          left (.ok ()) left := gives_noted _ fun _ => rfl
      refine hnote.follows ?_
      by_cases hexit : exit = .code 0
      · subst hexit
        exact .inl ⟨(), left, _, gives_pure (), .single (.finish hrun), rfl⟩
      · rw [isSuccess_eq_false hexit]
        exact follows_throw (.ended hrun hexit)

/-- The replay stops the run, with the steps of what the program reported or with a failure. -/
theorem follows_replay (hp : Place root name) (s : Snippet) (f : Folder) :
    Follows t h source o root name (replay h (.new .default s.signatures)) f (.finished s f)
      fun steps _ q => Stops t h source o q (.ok steps) := by
  refine (gives_entries hp).follows ?_
  rcases reported_or_fails t h source o s f with ⟨es, hr⟩ | ⟨e, hf⟩
  · rw [hr.ingestText]
    exact .inl ⟨_, f, _, gives_pure _, .refl, .replayed hr⟩
  · have hi := hf.ingestText (.new .default s.signatures)
    cases hf' : ingestText (.new .default s.signatures) (h.text eventsFile f) with
    | mk c failure =>
      rw [hf'] at hi
      obtain ⟨failure, rfl, rfl⟩ := Option.map_eq_some_iff.mp hi
      exact follows_throw hf

theorem plain_supportFile : Plain Support.fileName := by constructor <;> decide

theorem plain_library : Plain libraryTask.output := by constructor <;> decide

/-- All that is done inside the folder of a run follows the course of the run. -/
theorem follows_stages (hp : Place root name) {s : Snippet} {unit : String}
    (hu : s.unit? = some unit) :
    Follows t h source o root name (stages t h s source unit o) [] (.entered s unit [])
      fun steps _ q => Stops t h source o q (.ok steps) := by
  obtain ⟨n, -, rfl⟩ : ∃ n, s.unitName? = some n ∧ n.text = unit := Option.map_eq_some_iff.mp hu
  have hprogram (library : String) : Plain (programTask n.text library).output := plain_name n
  have hevents : Plain eventsFile := by constructor <;> decide
  refine (follows_writeFile hp (plain_source n) .write .write).bind ?_
  rintro _ f _ rfl
  refine (follows_writeFile hp plain_supportFile .supply .supply).bind ?_
  rintro _ f _ rfl
  refine (follows_build hp plain_library .link .link).bind ?_
  rintro library f _ rfl
  refine (follows_build hp (hprogram library) .build .build).bind ?_
  rintro program f _ rfl
  refine (gives_track hevents).follows ((follows_launch hp s program f).bind ?_)
  rintro _ f _ rfl
  exact follows_replay hp s f

end Retrace.Pipeline
