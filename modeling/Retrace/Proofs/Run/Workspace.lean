import Retrace.Proofs.Run.Folders

/-! A workspace is a folder of its own: what is done in it changes nothing around it, and its release
leaves nothing of it. -/
namespace Retrace.Workspace

variable {root start current f g : Folder} {name file : String} {parent path p : List String}
  {fill : Folder → Folder} {w : Workspace} {change : Option Entry → Except FileError (Option Entry)}

/-! ### A folder at a path where nothing was -/

/-- Nothing is at the path, and a folder can be made there: with `f` there, all is `fill f`. -/
inductive Hollow : Folder → List String → (Folder → Folder) → Prop where
  | here {root : Folder} {name : String} : Folder.Short name → root.get? name = none →
      Hollow root [name] fun f => root.set name (some (.folder f))
  | inside {root inner : Folder} {name : String} {path : List String} {fill : Folder → Folder} :
      Folder.Short name → root.get? name = some (.folder inner) → Hollow inner path fill →
      Hollow root (name :: path) fun f => root.set name (some (.folder (fill f)))

theorem Hollow.ne_nil (h : Hollow root path fill) : path ≠ [] := by
  cases h <;> exact List.cons_ne_nil _ _

/-- Where a folder is made, nothing was. -/
theorem exists_hollow (h : root.makeFolder path = .ok start) :
    ∃ fill, Hollow root path fill ∧ start = fill [] := by
  induction path generalizing root start with
  | nil => cases h
  | cons name path ih =>
    by_cases hp : path = []
    · subst hp
      obtain ⟨hs, hf, rfl⟩ := Folder.makeFolder_eq_ok h
      exact ⟨_, .here hs hf, rfl⟩
    · obtain ⟨hs, inner, inner', hinner, hi, rfl⟩ := Folder.updateAt_cons_eq_ok hp h
      obtain ⟨fill, hh, rfl⟩ := ih hi
      exact ⟨_, .inside hs hinner hh, rfl⟩

/-- A change further on is a change in the folder. -/
theorem Hollow.updateAt (h : Hollow root path fill) (hp : p ≠ []) (f : Folder) :
    Folder.updateAt change (path ++ p) (fill f) = (Folder.updateAt change p f).map fill := by
  induction h with
  | here hs _ => exact Folder.updateAt_inside hs hp change _ f
  | inside hs _ hh ih =>
    have hne := List.append_ne_nil_of_left_ne_nil hh.ne_nil p
    rw [List.cons_append, Folder.updateAt_inside hs hne, ih]
    cases Folder.updateAt change p f <;> rfl

/-- A change of the folder itself that is refused is refused. -/
theorem Hollow.updateAt_self {e : FileError} (h : Hollow root path fill)
    (hc : change (some (.folder f)) = .error e) :
    Folder.updateAt change path (fill f) = .error e := by
  induction h with
  | here hs _ =>
    rw [Folder.updateAt_single hs, Folder.get?_set_self, hc]
    rfl
  | inside hs _ hh ih =>
    rw [Folder.updateAt_inside hs hh.ne_nil, ih]
    rfl

/-- Without the folder all is as it was before it was made. -/
theorem Hollow.removeAll (h : Hollow root path fill) (f : Folder) :
    Folder.removeAll path (fill f) = .ok root := by
  induction h with
  | here hs hf =>
    rw [Folder.removeAll, Folder.updateAt_single hs]
    simp [Folder.get?_set_self, Except.map, Folder.set_set, Folder.set_none hf]
  | inside hs hinner hh ih =>
    rw [Folder.removeAll] at ih ⊢
    rw [Folder.updateAt_inside hs hh.ne_nil, ih]
    simp [Except.map, Folder.set_get? hinner]

/-- Nothing is at the path. -/
theorem Hollow.at? (h : Hollow root path fill) : root.at? path = none := by
  induction h with
  | here hs hf =>
    simp only [Folder.at?, Folder.find, if_neg (Nat.not_lt.mpr hs), hf]
    rfl
  | @inside root inner name path fill hs hinner hh ih =>
    cases path with
    | nil => exact absurd rfl hh.ne_nil
    | cons other path =>
      simp only [Folder.at?, Folder.find, if_neg (Nat.not_lt.mpr hs), hinner]
      exact ih

/-- What is read in the folder is read there at the rest of the path. -/
theorem Hollow.read?_inside (h : Hollow root path fill) (f : Folder) (q : List String) :
    (fill f).read? (path ++ q) = f.read? q := by
  induction h with
  | here hs _ => exact Folder.read?_set_folder hs _ f q
  | inside hs _ _ ih => rw [List.cons_append, Folder.read?_set_folder hs, ih]

/-- What is read elsewhere does not depend on what is in the folder. -/
theorem Hollow.read?_outside (h : Hollow root path fill) {q : List String} (hq : ¬path <+: q)
    (f g : Folder) : (fill f).read? q = (fill g).read? q := by
  induction h generalizing q with
  | @here root name hs _ =>
    cases q with
    | nil => rfl
    | cons other q =>
      have hn : other ≠ name := by
        rintro rfl
        exact hq ⟨q, rfl⟩
      apply Folder.read?_congr
      rw [Folder.get?_set_of_ne hn, Folder.get?_set_of_ne hn]
  | @inside root inner name path fill hs _ _ ih =>
    cases q with
    | nil => rfl
    | cons other q =>
      by_cases hn : other = name
      · subst hn
        rw [Folder.read?_set_folder hs, Folder.read?_set_folder hs]
        exact ih fun hp => hq (List.cons_prefix_cons.mpr ⟨rfl, hp⟩)
      · apply Folder.read?_congr
        rw [Folder.get?_set_of_ne hn, Folder.get?_set_of_ne hn]

/-- An attempt further on is an attempt in the folder. -/
theorem Hollow.attempt (h : Hollow root path fill)
    (hself : p = [] → ∃ e, change (some (.folder f)) = .error e) :
    Workspace.attempt (Folder.updateAt change (path ++ p)) (fill f) =
      fill (Workspace.attempt (Folder.updateAt change p) f) := by
  unfold Workspace.attempt
  by_cases hp : p = []
  · obtain ⟨e, he⟩ := hself hp
    rw [hp, List.append_nil, h.updateAt_self he]
    rfl
  · rw [h.updateAt hp]
    cases Folder.updateAt change p f <;> rfl

/-! ### Making, noting and releasing -/

theorem acquire_eq_ok (h : acquire parent name root = .ok (w, current)) :
    root.makeFolder (parent ++ [name]) = .ok current ∧ w = ⟨parent ++ [name], []⟩ := by
  unfold Workspace.acquire at h
  cases hm : root.makeFolder (parent ++ [name]) with
  | error e => simp [hm, Except.map] at h
  | ok g =>
    obtain ⟨hw, rfl⟩ : ⟨parent ++ [name], []⟩ = w ∧ g = current := by
      simpa [hm, Except.map] using h
    exact ⟨rfl, hw.symm⟩

theorem track_path (w : Workspace) (file : String) : (w.track file).path = w.path := by
  unfold Workspace.track
  split <;> rfl

theorem mem_track {file : String} (h : p ∈ (w.track file).tracked) :
    p ∈ w.tracked ∨ p = w.locate file := by
  unfold Workspace.track at h
  split at h
  · exact Or.inl h
  · simpa using h

/-- Each of the removals is attempted: only the entries of the workspace change. If no folder there has
a name twice, no file is left at any of the noted paths, and no other file is touched. -/
theorem Hollow.clear (h : Hollow root w.path fill) (hin : ∀ p ∈ w.tracked, w.path <+: p)
    (f : Folder) : ∃ g, w.clear (fill f) = fill g ∧
      (f.Distinct → ∀ q, g.read? q = if w.path ++ q ∈ w.tracked then none else f.read? q) := by
  have hnoted : ∀ p ∈ w.tracked.reverse, w.path <+: p := fun p hp => hin p (List.mem_reverse.mp hp)
  have hmem : ∀ q, w.path ++ q ∈ w.tracked ↔ w.path ++ q ∈ w.tracked.reverse := fun q =>
    List.mem_reverse.symm
  simp only [hmem]
  rw [Workspace.clear]
  generalize w.tracked.reverse = paths at hnoted ⊢
  induction paths generalizing f with
  | nil => exact ⟨f, rfl, by simp⟩
  | cons p paths ih =>
    obtain ⟨p, rfl⟩ := hnoted _ List.mem_cons_self
    obtain ⟨g, hfold, hreads⟩ := ih (Workspace.attempt (Folder.removeFile p) f)
      fun p hp => hnoted p (List.mem_cons_of_mem _ hp)
    have hone : Workspace.attempt (Folder.removeFile (w.path ++ p)) (fill f) =
        fill (Workspace.attempt (Folder.removeFile p) f) := h.attempt fun _ => ⟨.isFolder, rfl⟩
    refine ⟨g, by rw [List.foldl_cons, hone]; exact hfold, fun hf q => ?_⟩
    rw [hreads (hf.attempt Folder.keeps_vacate p) q, Folder.read?_attempt_removeFile hf]
    by_cases hq : q = p <;> simp [hq]

/-- The folder of a workspace can be removed with all that it holds, and the release does so. -/
theorem Hollow.release (h : Hollow root w.path fill) (hin : ∀ p ∈ w.tracked, w.path <+: p)
    (f : Folder) :
    Folder.removeAll w.path (w.clear (fill f)) = .ok root ∧ w.release (fill f) = root := by
  obtain ⟨g, hg, -⟩ := h.clear hin f
  have hremove : Folder.removeAll w.path (w.clear (fill f)) = .ok root := by
    rw [hg, h.removeAll]
  refine ⟨hremove, ?_⟩
  rw [Workspace.release, Workspace.attempt, hremove]

/-! ### A workspace right in the folder around -/

/-- A place for a workspace: a name of its own in the folder around. -/
structure Place (root : Folder) (name : String) : Prop where
  short : Folder.Short name
  free : root.get? name = none

/-- The folder around with a workspace in it that holds some entries. -/
def put (root : Folder) (name : String) (f : Folder) : Folder :=
  root.set name (some (.folder f))

/-- A path of a file in the workspace. -/
def Within (name : String) (path : List String) : Prop := ∃ file, path = [name, file]

/-- The workspace holds the entries `f`, and only files in it are to be removed. -/
structure Inside (root : Folder) (name : String) (w : Workspace) (current f : Folder) : Prop where
  path : w.path = [name]
  holds : current = put root name f
  tracked : ∀ path ∈ w.tracked, Within name path

theorem Place.acquire {w : Workspace} (h : acquire [] name root = .ok (w, current)) :
    Place root name ∧ Inside root name w current [] := by
  obtain ⟨hm, rfl⟩ := acquire_eq_ok h
  obtain ⟨hs, hf, rfl⟩ := Folder.makeFolder_eq_ok hm
  exact ⟨⟨hs, hf⟩, rfl, rfl, by simp⟩

theorem locate_plain (h : Inside root name w current f) (hp : Plain file) :
    w.locate file = [name, file] := by
  rw [locate, h.path, pathFrom_plain hp]
  rfl

theorem Inside.track (h : Inside root name w current f) (hp : Plain file) :
    Inside root name (w.track file) current f := by
  refine ⟨(track_path w file).trans h.path, h.holds, fun path hm => ?_⟩
  rcases mem_track hm with hm | rfl
  · exact h.tracked path hm
  · exact ⟨file, locate_plain h hp⟩

theorem Inside.entries? (hp : Place root name) (h : Inside root name w current f) :
    w.entries? current = some f := by
  rw [Workspace.entries?, h.path, h.holds, put, Folder.at?, Folder.find_inside hp.short]
  rfl

/-- Writing a file of the workspace is writing it among the entries. -/
theorem Inside.write (hp : Place root name) (h : Inside root name w current f) (hf : Plain file)
    (contents : Contents) :
    (w.write file contents current).2 = (f.write [file] contents).map (put root name) := by
  rw [Workspace.write, locate_plain h hf, h.holds]
  exact Folder.updateAt_inside hp.short (List.cons_ne_nil file []) _ root f

theorem Inside.replace (hp : Place root name) (h : Inside root name w current f) (g : Folder) :
    Inside root name w
      (attempt (Folder.updateAt (fun _ => .ok (some (.folder g))) w.path) current) g := by
  refine ⟨h.path, ?_, h.tracked⟩
  rw [h.path, h.holds, attempt, Folder.updateAt_single hp.short]
  simp [Except.map, put, Folder.set_set]

/-- The release of a workspace leaves the folder around as it was before. -/
theorem Inside.release (hp : Place root name) (h : Inside root name w current f) :
    w.release current = root := by
  have hhollow : Hollow root w.path (put root name) := h.path ▸ .here hp.short hp.free
  have hin : ∀ p ∈ w.tracked, w.path <+: p := by
    intro p hm
    obtain ⟨file, rfl⟩ := h.tracked p hm
    exact h.path ▸ ⟨[file], rfl⟩
  rw [h.holds]
  exact (hhollow.release hin f).2

end Retrace.Workspace
