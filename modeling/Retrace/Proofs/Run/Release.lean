import Retrace.Proofs.Run.Workspace

/-! The release of a workspace undoes its making, whatever was done in the workspace meanwhile: nothing
of it is left, and everything around it is as it was. -/
namespace Retrace.Workspace

variable {root start current f : Folder} {name : String} {parent path p : List String}
  {fill : Folder → Folder} {w₀ : Workspace} {change : Option Entry → Except FileError (Option Entry)}

/-- What can happen to a workspace before its release: the run writes a file or notes one, or others
put a file into the folder or into one below it, make a folder there, or remove a file or a folder
with all that is in it. -/
inductive Happening where
  | write (file : String) (contents : Contents)
  | track (file : String)
  | put (file : String) (contents : Contents)
  | makeFolder (file : String)
  | remove (file : String)

namespace Happening

/-- The workspace and the folder around it after something happened. What cannot be done is not
done. -/
def apply (s : Workspace × Folder) : Happening → Workspace × Folder
  | write file contents =>
    ((s.1.write file contents s.2).1, attempt (fun f => (s.1.write file contents f).2) s.2)
  | track file => (s.1.track file, s.2)
  | put file contents => (s.1, attempt (Folder.write (s.1.locate file) contents) s.2)
  | makeFolder file => (s.1, attempt (Folder.makeFolder (s.1.locate file)) s.2)
  | remove file => (s.1, attempt (Folder.removeAll (s.1.locate file)) s.2)

/-- It happens inside the workspace. The folder itself is not removed. -/
def Within (w : Workspace) : Happening → Prop
  | write file _ | track file | put file _ | makeFolder file => w.path <+: w.locate file
  | remove file => w.path <+: w.locate file ∧ w.locate file ≠ w.path

instance (w : Workspace) (e : Happening) : Decidable (e.Within w) := by
  cases e <;> unfold Within <;> infer_instance

end Happening

/-! ### Happenings one by one and in a row -/

/-- The workspace is at the path and holds the entries `f`; the noted files are in it. -/
structure Holds (path : List String) (fill : Folder → Folder) (f : Folder)
    (s : Workspace × Folder) : Prop where
  place : s.1.path = path
  current : s.2 = fill f
  tracked : ∀ p ∈ s.1.tracked, path <+: p
  distinct : f.Distinct

theorem Holds.attempt {s : Workspace × Folder} (hh : Hollow root path fill)
    (h : Holds path fill f s) (hin : s.1.path <+: p)
    (hself : p = s.1.path → ∃ e, change (some (.folder f)) = .error e)
    (hkeeps : Folder.Keeps change) :
    ∃ g : Folder, g.Distinct ∧ Workspace.attempt (Folder.updateAt change p) s.2 = fill g := by
  rw [h.place] at hin hself
  obtain ⟨q, rfl⟩ := hin
  rw [h.current, hh.attempt fun hq => hself (by rw [hq, List.append_nil])]
  exact ⟨_, h.distinct.attempt hkeeps q, rfl⟩

theorem Holds.track {s : Workspace × Folder} (h : Holds path fill f s) {file : String}
    (hin : s.1.path <+: s.1.locate file) : ∀ p ∈ (s.1.track file).tracked, path <+: p := by
  intro p hp
  rcases mem_track hp with hp | rfl
  · exact h.tracked p hp
  · exact h.place ▸ hin

/-- Whatever happens inside a workspace changes only what it holds. -/
theorem Holds.apply {s : Workspace × Folder} (hh : Hollow root path fill)
    (h : Holds path fill f s) {e : Happening} (hin : e.Within s.1) :
    ∃ g, Holds path fill g (e.apply s) := by
  cases e with
  | track file =>
    exact ⟨f, (track_path s.1 file).trans h.place, h.current, h.track hin, h.distinct⟩
  | write file contents =>
    obtain ⟨g, hg, hw⟩ := h.attempt hh hin (fun _ => ⟨.isFolder, rfl⟩) (Folder.keeps_fill contents)
    exact ⟨g, (track_path s.1 file).trans h.place, hw, h.track hin, hg⟩
  | put file contents =>
    obtain ⟨g, hg, hw⟩ := h.attempt hh hin (fun _ => ⟨.isFolder, rfl⟩) (Folder.keeps_fill contents)
    exact ⟨g, h.place, hw, h.tracked, hg⟩
  | makeFolder file =>
    obtain ⟨g, hg, hw⟩ := h.attempt hh hin (fun _ => ⟨.isFolder, rfl⟩) Folder.keeps_build
    exact ⟨g, h.place, hw, h.tracked, hg⟩
  | remove file =>
    obtain ⟨hin, hne⟩ := hin
    obtain ⟨g, hg, hw⟩ := h.attempt hh hin (fun he => absurd he hne) Folder.keeps_removal
    exact ⟨g, h.place, hw, h.tracked, hg⟩

theorem Happening.Within.congr {w w' : Workspace} (hp : w'.path = w.path) {e : Happening}
    (h : e.Within w) : e.Within w' := by
  cases e <;> simpa only [Happening.Within, locate, hp] using h

theorem Holds.run {s : Workspace × Folder} (hh : Hollow root path fill)
    (h : Holds path fill f s) {es : List Happening} (hin : ∀ e ∈ es, e.Within s.1) :
    ∃ g, Holds path fill g (es.foldl Happening.apply s) := by
  induction es generalizing f s with
  | nil => exact ⟨f, h⟩
  | cons e es ih =>
    obtain ⟨g, hg⟩ := h.apply hh (hin e List.mem_cons_self)
    have hplace : (e.apply s).1.path = s.1.path := hg.place.trans h.place.symm
    exact ih hg fun d hd => (hin d (List.mem_cons_of_mem _ hd)).congr hplace

theorem holds_start (h : acquire parent name root = .ok (w₀, start)) :
    ∃ fill, Hollow root w₀.path fill ∧ Holds w₀.path fill [] (w₀, start) := by
  obtain ⟨hm, rfl⟩ := acquire_eq_ok h
  obtain ⟨fill, hh, rfl⟩ := exists_hollow hm
  exact ⟨fill, hh, rfl, rfl, by simp, Folder.distinct_nil⟩

/-! ### The release -/

/-- Whatever happened inside a workspace from its making to its release, the release leaves the folder
around as it was before the making, with nothing at the path of the workspace. Before it removes the
folder, which cannot fail, it takes away each noted file that is there, also when others are missing
or have become folders, and nothing else. -/
theorem release_restores (hmade : acquire parent name root = .ok (w₀, start))
    (es : List Happening) (hin : ∀ e ∈ es, e.Within w₀) :
    let (w, current) := es.foldl Happening.apply (w₀, start)
    w.release current = root ∧ root.at? w.path = none ∧
      Folder.removeAll w.path (w.clear current) = .ok root ∧
      ∀ p, (w.clear current).read? p = if p ∈ w.tracked then none else current.read? p := by
  obtain ⟨fill, hh, h₀⟩ := holds_start hmade
  obtain ⟨f, h⟩ := h₀.run hh hin
  generalize es.foldl Happening.apply (w₀, start) = s at h
  obtain ⟨w, current⟩ := s
  obtain ⟨hplace, rfl, htracked, hdistinct⟩ := h
  simp only at hplace htracked
  rw [← hplace] at hh htracked
  obtain ⟨hremove, hrelease⟩ := hh.release htracked f
  obtain ⟨g, hclear, hreads⟩ := hh.clear htracked f
  refine ⟨hrelease, hh.at?, hremove, fun p => ?_⟩
  simp only [hclear]
  by_cases hp : w.path <+: p
  · obtain ⟨q, rfl⟩ := hp
    rw [hh.read?_inside, hh.read?_inside, hreads hdistinct]
  · have hout : p ∉ w.tracked := fun hm => hp (htracked p hm)
    rw [if_neg hout]
    exact hh.read?_outside hp g f

/-- A folder for temporary files beside another entry, with the workspace of another run in it. -/
def sampleHome : Folder :=
  [("notes", .file [some 'n']), ("tmp", .folder [("btviz-b", .folder [("a.rs", .file [])])])]

/-- A run writes a file, which others write again, and notes two more. One of them is never there; in
the place of the other there is a folder at the end, with a file that is not noted. -/
def sampleHappenings : List Happening :=
  [.write "a.rs" [some 'a'], .track "a", .put "log" [], .track "log", .put "a.rs" [some 'b'],
    .remove "log", .makeFolder "log", .put "log/stray" [some 's'], .track "log", .track "none/file"]

def sampleWorkspace : Workspace := ⟨["tmp", "btviz-a"], []⟩

/-- The folder around when the workspace has been made. -/
def sampleStart : Folder := attempt (Folder.makeFolder sampleWorkspace.path) sampleHome

theorem release_restores_sample :
    (∀ e ∈ sampleHappenings, e.Within sampleWorkspace) ∧
      let (w, current) := sampleHappenings.foldl Happening.apply (sampleWorkspace, sampleStart)
      w.tracked = [["tmp", "btviz-a", "a.rs"], ["tmp", "btviz-a", "a"], ["tmp", "btviz-a", "log"],
          ["tmp", "btviz-a", "none", "file"]] ∧
        current.read? ["tmp", "btviz-a", "a.rs"] = some [some 'b'] ∧
        current.read? ["tmp", "btviz-a", "log", "stray"] = some [some 's'] ∧
        w.release current = sampleHome := by
  have hmade : acquire ["tmp"] "btviz-a" sampleHome = .ok (sampleWorkspace, sampleStart) := rfl
  have hin : ∀ e ∈ sampleHappenings, e.Within sampleWorkspace := by decide +kernel
  have hrelease := (release_restores hmade sampleHappenings hin).1
  refine ⟨hin, ?_, ?_, ?_, hrelease⟩
  · decide +kernel
  · decide +kernel
  · decide +kernel

end Retrace.Workspace
