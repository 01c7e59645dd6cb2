import Retrace.Proofs.Run.Pipeline
import Retrace.Run.Rehearsal

/-! The texts that are in the folder of a run when it builds something. The names there are those of
the support library, those of what the program leaves, and two that come from the name of the
unit. -/
namespace Retrace

open Source Text

theorem Surroundings.put_eq_ok {h : Surroundings} {file : String} {text : List Char} {f g : Folder}
    (hp : h.put file text f = .ok g) : g = f.set file (some (.file (text.map some))) := by
  unfold Surroundings.put at hp
  cases hh : h.hindrance file with
  | some e => simp [hh] at hp
  | none => exact Folder.write_eq_ok (by simpa [hh] using hp)

/-- A folder has a file with a text. -/
def Folder.Holds (f : Folder) (file text : String) : Prop :=
  f.get? file = some (.file (text.toList.map some))

namespace Toolchain

/-- A toolchain that changes no program text, unless a task says to build a file of that name. -/
def KeepsTexts (t : Toolchain) : Prop :=
  ∀ task f stem, stem ++ ".rs" ≠ task.output →
    (t task f).2.get? (stem ++ ".rs") = f.get? (stem ++ ".rs")

theorem KeepsTexts.holds {t : Toolchain} {task : BuildTask} {f : Folder} {stem text : String}
    (ht : t.KeepsTexts) (hne : stem ++ ".rs" ≠ task.output) (hf : f.Holds (stem ++ ".rs") text) :
    (t task f).2.Holds (stem ++ ".rs") text :=
  (ht task f stem hne).trans hf

/-- What a rehearsed compiler changes is what it is told to build. -/
theorem keepsTexts_rehearsal (r : Rehearsal) (compiler edition : String) :
    (ofCompiler r.host.compile compiler edition).KeepsTexts := by
  intro task f stem hne
  have hbuild (b : BuildScript) :
      (Rehearsal.build b ⟨compiler, edition, task⟩ f).2.get? (stem ++ ".rs") =
        f.get? (stem ++ ".rs") := by
    unfold Rehearsal.build
    split
    · exact Folder.get?_set_of_ne hne f _
    · rfl
  cases hc : r.hasCompiler with
  | false => simp [ofCompiler, Rehearsal.host, hc]
  | true => simpa [ofCompiler, Rehearsal.host, hc] using hbuild _

end Toolchain

namespace Pipeline

open Workspace (Place Inside)

variable {α β : Type} {root f g : Folder} {name unit source : String} {m : Stage α}
  {k : α → Stage β} {t : Toolchain} {h : Surroundings} {o : RunOptions} {s : Snippet} {a : α}
  {e : TraceError} {bs bs' : List (BuildTask × Folder)} {task : BuildTask}

/-! ### Names -/

/-- The name of a unit whose program would be written to the file of the support library. -/
def reservedUnit : String := "__btviz_trace"

/-- The names that every run uses in its folder: the support library as a text and built, the events,
and what the program prints. -/
def fixedFiles : List String :=
  [Support.fileName, libraryTask.output, eventsFile, outputFile, errorFile]

/-- All names that a run uses in its folder: the program as a text and built, and the fixed ones. -/
def workFiles (unit : String) : List String := (unit ++ ".rs") :: unit :: fixedFiles

theorem source_ne {file : String} (stem : String) (hf : file.toList.getLast? ≠ some 's') :
    stem ++ ".rs" ≠ file := by
  rintro rfl
  exact hf (by simp)

theorem source_mem_fixedFiles_iff : unit ++ ".rs" ∈ fixedFiles ↔ unit = reservedUnit := by
  have hsupport : Support.fileName = reservedUnit ++ ".rs" := by decide
  have hother : ∀ file ∈ fixedFiles, file ≠ Support.fileName → file.toList.getLast? ≠ some 's' := by
    decide
  constructor
  · intro hm
    by_cases hs : unit ++ ".rs" = Support.fileName
    · rw [hsupport, ← String.toList_inj] at hs
      exact String.toList_inj.mp (by simpa using hs)
    · exact absurd rfl (source_ne unit (hother _ hm hs))
  · rintro rfl
    decide

/-- The names are all different, but for a unit with the one name that is in use already. -/
theorem nodup_workFiles_iff (n : Name) : (workFiles n.text).Nodup ↔ n.text ≠ reservedUnit := by
  have hdot : '.' ∉ n.text.toList := n.not_mem (by decide) (by decide) (by decide)
  have hdots : ∀ file ∈ fixedFiles, '.' ∈ file.toList := by decide
  have hfixed : n.text ∉ fixedFiles := fun hm => hdot (hdots _ hm)
  have hself : n.text ++ ".rs" ≠ n.text := ne_of_mem (c := '.') (by simp) hdot
  have hnodup : fixedFiles.Nodup := by decide
  rw [workFiles, List.nodup_cons, List.nodup_cons, List.mem_cons, source_mem_fixedFiles_iff]
  simp [hfixed, hself, hnodup]

/-! ### The orders of a stage -/

/-- A stage that gives no orders. -/
def Silent (m : Stage α) : Prop := ∀ state, (m.run.run state).2.2.builds = state.2.builds

theorem silent_pure (a : α) : Silent (pure a) := fun _ => rfl

theorem silent_throw (e : TraceError) : Silent (throw e : Stage α) := fun _ => rfl

theorem Silent.bind (hm : Silent m) (hk : ∀ a, Silent (k a)) : Silent (m >>= k) := by
  intro state
  rw [ExceptT.run_bind, StateT.run_bind]
  cases hr : m.run.run state with
  | mk r state' =>
    have hs : state'.2.builds = state.2.builds := by rw [← hm state, hr]
    cases r with
    | ok a => exact (hk a state').trans hs
    | error e => exact hs

theorem silent_track (file : String) : Silent (track file) := fun _ => rfl

theorem silent_entries : Silent entries := fun _ => rfl

theorem silent_setEntries (f : Folder) : Silent (setEntries f) := fun _ => rfl

theorem silent_writeFile (h : Surroundings) (what file : String) (text : List Char) :
    Silent (writeFile h what file text) := by
  refine (silent_track file).bind fun _ state => ?_
  rw [run_get_bind]
  cases hw : h.write state.1 file (text.map some) state.2.root <;> simp only [hw] <;> rfl

theorem silent_launch (h : Surroundings) (r : LaunchRequest) : Silent (launch h r) := by
  refine (silent_track _).bind fun _ => (silent_track _).bind fun _ =>
    (silent_writeFile _ _ _ _).bind fun _ => (silent_writeFile _ _ _ _).bind fun _ =>
    silent_entries.bind fun f => ?_
  cases h.launch r f with
  | mk outcome left =>
    refine (silent_setEntries left).bind fun _ => ?_
    cases outcome with
    | ended exit =>
      refine Silent.bind (fun _ => rfl) fun _ => ?_
      cases exit.isSuccess with
      | true => exact silent_pure ()
      | false => exact silent_throw _
    | _ => exact silent_throw _

theorem silent_replay (h : Surroundings) (c : Collector) : Silent (replay h c) := by
  refine silent_entries.bind fun f => ?_
  cases hi : ingestText c (h.text eventsFile f) with
  | mk c' failure =>
    cases failure with
    | none => exact silent_pure _
    | some e => exact silent_throw _

/-- With the entries `f` in the folder of the run a stage gives the orders `bs`, each with the
entries at that time. -/
def Orders (root : Folder) (name : String) (m : Stage α) (f : Folder)
    (bs : List (BuildTask × Folder)) : Prop :=
  ∀ w (j : Course BuildTask), Inside root name w j.root f →
    (m.run.run (w, j)).2.2.builds = j.builds ++ bs

theorem Silent.orders (hm : Silent m) : Orders root name m f [] :=
  fun w j _ => (hm (w, j)).trans (List.append_nil _).symm

theorem Orders.bind (hm : Orders root name m f bs) (hg : Gives root name m f (.ok a) g)
    (hk : Orders root name (k a) g bs') : Orders root name (m >>= k) f (bs ++ bs') := by
  intro w j hw
  obtain ⟨w', j', hrun, hw'⟩ := hg w j hw
  have hj : j'.builds = j.builds ++ bs := by rw [← hm w j hw, hrun]
  rw [ExceptT.run_bind, StateT.run_bind, hrun, ← List.append_assoc, ← hj]
  exact hk w' j' hw'

theorem Orders.bind_error (hm : Orders root name m f bs) (hg : Gives root name m f (.error e) g) :
    Orders root name (m >>= k) f bs := by
  intro w j hw
  obtain ⟨w', j', hrun, hw'⟩ := hg w j hw
  have hj : j'.builds = j.builds ++ bs := by rw [← hm w j hw, hrun]
  rw [ExceptT.run_bind, StateT.run_bind, hrun, ← hj]
  rfl

theorem Orders.bind_silent (hm : Orders root name m f bs) (hg : Gives root name m f (.ok a) g)
    (hk : Silent (k a)) : Orders root name (m >>= k) f bs := by
  simpa using hm.bind hg hk.orders

theorem Silent.orders_bind (hm : Silent m) (hg : Gives root name m f (.ok a) g)
    (hk : Orders root name (k a) g bs) : Orders root name (m >>= k) f bs :=
  hm.orders.bind hg hk

/-- A build is an order for its task, with the entries before it. -/
theorem orders_build (hp : Place root name) (hf : Plain task.output) (t : Toolchain) (f : Folder) :
    Orders root name (build t task) f [(task, f)] := by
  refine (silent_track _).orders_bind (gives_track hf) ?_
  refine silent_entries.orders_bind (gives_entries hp) ?_
  cases ht : t task f with
  | mk built left =>
    have hnote : Orders root name (noted fun j => { j with builds := j.builds ++ [(task, f)] }) f
        [(task, f)] := fun _ _ _ => rfl
    refine hnote.bind_silent (gives_noted _ fun _ => rfl) ?_
    refine (silent_setEntries left).bind fun _ => ?_
    cases built with
    | ok path => exact silent_pure path
    | error e => exact silent_throw e

/-! ### The orders of a run -/

/-- The entries of the folder when a run has written what it builds. -/
def supplies (h : Surroundings) (s : Snippet) (source unit : String) : Except FileError Folder := do
  let f ← h.put (unit ++ ".rs") (withEntryPoint s source unit).toList []
  h.put Support.fileName Support.source.toList f

/-- The orders of a run that has written the entries `f`: one for the support library, and if that
goes well another one for the program. -/
def ordersFrom (t : Toolchain) (unit : String) (f : Folder) : List (BuildTask × Folder) :=
  (libraryTask, f) :: match t libraryTask f with
    | (.ok library, g) => [(programTask unit library, g)]
    | (.error _, _) => []

/-- The stages after the texts are written give the orders to build, and no other ones. -/
theorem orders_builds (hp : Place root name) (n : Name) (f : Folder) :
    Orders root name (do
      let library ← build t libraryTask
      let program ← build t (programTask n.text library)
      track eventsFile
      launch h ⟨program, eventsFile, o.timeout, o.backtraces⟩
      replay h (.new .default s.signatures)) f (ordersFrom t n.text f) := by
  have hg := gives_build hp plain_library t f
  have ho := orders_build hp plain_library t f
  unfold ordersFrom
  cases ht : t libraryTask f with
  | mk built g =>
    rw [ht] at hg
    cases built with
    | error e => exact ho.bind_error hg
    | ok library =>
      refine ho.bind hg ?_
      have hprogram : Plain (programTask n.text library).output := plain_name n
      have hg' := gives_build hp hprogram t g
      have ho' := orders_build hp hprogram t g
      cases ht' : t (programTask n.text library) g with
      | mk built left =>
        rw [ht'] at hg'
        cases built with
        | error e => exact ho'.bind_error hg'
        | ok program =>
          refine ho'.bind_silent hg' ?_
          exact (silent_track _).bind fun _ => (silent_launch _ _).bind fun _ => silent_replay _ _

theorem orders_stages (hp : Place root name) (hu : s.unit? = some unit) :
    Orders root name (stages t h s source unit o) [] (match supplies h s source unit with
      | .ok f => ordersFrom t unit f
      | .error _ => []) := by
  obtain ⟨n, -, rfl⟩ : ∃ n, s.unitName? = some n ∧ n.text = unit := Option.map_eq_some_iff.mp hu
  unfold supplies
  rcases gives_writeFile hp (plain_source n) h "writing snippet"
      (withEntryPoint s source n.text).toList [] with ⟨f, hput, hg⟩ | ⟨e, hput, hg⟩
  · rw [hput]
    refine (silent_writeFile _ _ _ _).orders_bind hg ?_
    rcases gives_writeFile hp plain_supportFile h "writing support crate" Support.source.toList f
      with ⟨g, hput, hg⟩ | ⟨e, hput, hg⟩
    · rw [show (Except.ok f >>= h.put Support.fileName Support.source.toList) = .ok g from hput]
      exact (silent_writeFile _ _ _ _).orders_bind hg (orders_builds hp n g)
    · rw [show (Except.ok f >>= h.put Support.fileName Support.source.toList) = .error e from hput]
      exact (silent_writeFile _ _ _ _).orders.bind_error hg
  · rw [hput]
    exact (silent_writeFile _ _ _ _).orders.bind_error hg

theorem builds_runWith (hs : Snippet.read source = .ok s) (hu : s.unit? = some unit)
    {b : BuildTask × Folder} (hb : b ∈ (runWith t h source o).2.builds) :
    ∃ f, supplies h s source unit = .ok f ∧ b ∈ ordersFrom t unit f := by
  cases ha : h.acquire with
  | error e => simp [runWith_homeless hs hu ha] at hb
  | ok made =>
    obtain ⟨w, root⟩ := made
    obtain ⟨hp, hw⟩ := place_of_acquire ha
    have hstages : Orders h.around h.name (stages t h s source unit o) [] _ := orders_stages hp hu
    have ho := hstages w ⟨[], none, root⟩ hw
    cases hr : (stages t h s source unit o).run.run (w, ⟨[], none, root⟩) with
    | mk r left =>
      rw [hr] at ho
      rw [runWith_entered hs hu ha hr, ho] at hb
      cases hf : supplies h s source unit with
      | error e => simp [hf] at hb
      | ok f => exact ⟨f, rfl, by simpa [hf] using hb⟩

/-! ### The texts that are built -/

/-- The support library is always there to be built, and the program unless its file is that of the
support library. -/
theorem holds_supplies (hf : supplies h s source unit = .ok f) :
    f.Holds Support.fileName Support.source ∧
      f.Holds (unit ++ ".rs")
        (if unit = reservedUnit then Support.source else withEntryPoint s source unit) := by
  unfold supplies at hf
  cases hg : h.put (unit ++ ".rs") (withEntryPoint s source unit).toList [] with
  | error e => rw [hg] at hf; cases hf
  | ok g =>
    rw [hg] at hf
    have hf' : h.put Support.fileName Support.source.toList g = .ok f := hf
    have hsupport : f.Holds Support.fileName Support.source := by
      rw [h.put_eq_ok hf']
      exact Folder.get?_set_self _ _ _
    refine ⟨hsupport, ?_⟩
    split
    · rename_i hu
      rw [hu]
      exact hsupport
    · rename_i hu
      have hne : unit ++ ".rs" ≠ Support.fileName := fun he =>
        hu (source_mem_fixedFiles_iff.mp (he ▸ List.mem_cons_self))
      rw [Folder.Holds, h.put_eq_ok hf', Folder.get?_set_of_ne hne, h.put_eq_ok hg]
      exact Folder.get?_set_self _ _ _

/-- The names that a run uses are all different, but for one name of the unit. The support library
is built from its own text in every run, and the program from the text of the program, but for this
name, where it is built from the text of the support library. -/
theorem builds_hold_texts (ht : t.KeepsTexts) (hs : Snippet.read source = .ok s)
    (hu : s.unit? = some unit) :
    ((workFiles unit).Nodup ↔ unit ≠ reservedUnit) ∧
      ∀ b ∈ (runWith t h source o).2.builds,
        b.1 = libraryTask ∧ b.2.Holds b.1.source Support.source ∨
        (∃ library, b.1 = programTask unit library) ∧ b.2.Holds b.1.source
          (if unit = reservedUnit then Support.source else withEntryPoint s source unit) := by
  obtain ⟨n, -, rfl⟩ : ∃ n, s.unitName? = some n ∧ n.text = unit := Option.map_eq_some_iff.mp hu
  refine ⟨nodup_workFiles_iff n, fun b hb => ?_⟩
  obtain ⟨f, hf, hb⟩ := builds_runWith hs hu hb
  obtain ⟨hlibrary, hprogram⟩ := holds_supplies hf
  rcases List.mem_cons.mp hb with rfl | hb
  · exact .inl ⟨rfl, hlibrary⟩
  · cases htf : t libraryTask f with
    | mk built g =>
      rw [htf] at hb
      cases built with
      | error e => cases hb
      | ok library =>
        obtain rfl := List.mem_singleton.mp hb
        have hne : n.text ++ ".rs" ≠ libraryTask.output := source_ne n.text (by decide)
        have hkept := ht.holds hne hprogram
        rw [htf] at hkept
        exact .inr ⟨⟨library, rfl⟩, hkept⟩

/-- A rehearsal in which all goes well. -/
def sampleRehearsal : Rehearsal :=
  { parent := some [], path := "/work", name := "run", hasCompiler := true
    support := ⟨[], true, .code 0⟩, program := ⟨[], true, .code 0⟩
    launch := ⟨none, [], [], false, .code 0⟩ }

/-- The course of a rehearsed run. -/
def rehearsed (r : Rehearsal) (source : String) : Course BuildTask :=
  (runWith (Toolchain.ofCompiler r.host.compile "rustc" "2021") r.host.toSurroundings source
    .default).2

/-- A program whose first type has the one name that is in use already. -/
def sampleSource : String := "struct __btviz_trace;\n\nfn main() \x7b\x7d\n"

theorem unit?_sampleSource :
    (Snippet.read sampleSource).toOption.bind Snippet.unit? = some reservedUnit := by
  decide +kernel

/-- Two builds of one text. -/
theorem builds_hold_sample :
    (rehearsed sampleRehearsal sampleSource).builds.map (·.1) =
        [libraryTask, programTask reservedUnit "libbtviz_trace.rlib"] ∧
      ∀ b ∈ (rehearsed sampleRehearsal sampleSource).builds,
        b.2.Holds b.1.source Support.source := by
  refine ⟨by decide +kernel, fun b hb => ?_⟩
  have hunit := unit?_sampleSource
  cases hs : Snippet.read sampleSource with
  | error fault => rw [hs] at hunit; cases hunit
  | ok s =>
    have hu : s.unit? = some reservedUnit := by rw [hs] at hunit; exact hunit
    unfold rehearsed at hb
    rcases (builds_hold_texts (Toolchain.keepsTexts_rehearsal _ _ _) hs hu).2 b hb with
      ⟨-, hb⟩ | ⟨-, hb⟩
    · exact hb
    · rw [if_pos rfl] at hb
      exact hb

end Pipeline
end Retrace
