import Retrace.Proofs.Run.Files
import Retrace.Run.Workspace

/-! What is read at a path, and what the removal of a file takes away: that file and nothing else,
provided that no folder has a name twice. -/
namespace Retrace

/-- No folder has a name twice, at any depth. -/
inductive Entry.Distinct : Entry → Prop where
  | file (contents : Contents) : Distinct (.file contents)
  | folder {f : Folder} : (f.map Prod.fst).Nodup → (∀ row ∈ f, row.2.Distinct) →
      Distinct (.folder f)

namespace Folder

variable {f g inner : Folder} {name other : String} {path p q : List String} {e : Entry}
  {change : Option Entry → Except FileError (Option Entry)}

/-- No name stands twice in the folder or in a folder below it. -/
abbrev Distinct (f : Folder) : Prop := (Entry.folder f).Distinct

theorem Distinct.names (h : f.Distinct) : (f.map Prod.fst).Nodup := by
  cases h with
  | folder hn _ => exact hn

theorem Distinct.entries (h : f.Distinct) : ∀ row ∈ f, row.2.Distinct := by
  cases h with
  | folder _ he => exact he

theorem distinct_nil : Distinct [] := .folder List.nodup_nil (by simp)

theorem mem_of_get? (h : f.get? name = some e) : (name, e) ∈ f := by
  obtain ⟨before, after, rfl, -⟩ := List.lookup_eq_some_iff.mp h
  simp

theorem Distinct.get? (h : f.Distinct) (he : f.get? name = some e) : e.Distinct :=
  h.entries _ (mem_of_get? he)

theorem get?_eq_none_iff : f.get? name = none ↔ name ∉ f.map Prod.fst := by
  induction f with
  | nil => simp [Folder.get?]
  | cons row f ih =>
    obtain ⟨k, d⟩ := row
    by_cases hk : name = k
    · simp [Folder.get?, hk]
    · have hne : (name == k) = false := by simpa using hk
      simpa [Folder.get?, List.lookup_cons, hne, hk] using ih

theorem set_get? (h : f.get? name = some e) : f.set name (some e) = f := by
  induction f with
  | nil => simp [Folder.get?] at h
  | cons row f ih =>
    obtain ⟨k, d⟩ := row
    by_cases hk : k = name
    · obtain rfl : d = e := by simpa [Folder.get?, hk] using h
      simp [set, hk]
    · have hne : (name == k) = false := by simpa using Ne.symm hk
      have hrest : Folder.get? f name = some e := by
        simpa [Folder.get?, List.lookup_cons, hne] using h
      simp [set, hk, ih hrest]

/-- The entries after a change at a name: the old ones, and the new one under the name. -/
theorem mem_set {row : String × Entry} {o : Option Entry} (h : row ∈ f.set name o) :
    row ∈ f ∨ row.1 = name ∧ o = some row.2 := by
  induction f with
  | nil =>
    cases o with
    | none => simp [set] at h
    | some e =>
      obtain rfl : row = (name, e) := by simpa [set] using h
      exact Or.inr ⟨rfl, rfl⟩
  | cons r f ih =>
    obtain ⟨k, d⟩ := r
    by_cases hk : k = name
    · rw [set, if_pos hk] at h
      rcases List.mem_append.mp h with h | h
      · cases o with
        | none => simp at h
        | some e =>
          obtain rfl : row = (name, e) := by simpa using h
          exact Or.inr ⟨rfl, rfl⟩
      · exact Or.inl (List.mem_cons_of_mem _ h)
    · rw [set, if_neg hk] at h
      rcases List.mem_cons.mp h with rfl | h
      · exact Or.inl List.mem_cons_self
      · rcases ih h with h | h
        · exact Or.inl (List.mem_cons_of_mem _ h)
        · exact Or.inr h

theorem nodup_names_set (h : (f.map Prod.fst).Nodup) (name : String) (o : Option Entry) :
    ((f.set name o).map Prod.fst).Nodup := by
  induction f with
  | nil => cases o <;> simp [set]
  | cons r f ih =>
    obtain ⟨k, d⟩ := r
    obtain ⟨hk, hf⟩ := List.nodup_cons.mp h
    by_cases hn : k = name
    · subst hn
      cases o with
      | none => simpa [Folder.set] using hf
      | some e => simpa [Folder.set] using h
    · rw [Folder.set, if_neg hn]
      refine List.nodup_cons.mpr ⟨fun hm => ?_, ih hf⟩
      obtain ⟨row, hrow, hfst⟩ := List.mem_map.mp hm
      rcases mem_set hrow with hrow | ⟨hname, -⟩
      · exact hk (List.mem_map.mpr ⟨row, hrow, hfst⟩)
      · exact hn (hfst.symm.trans hname)

theorem Distinct.set (h : f.Distinct) {o : Option Entry} (ho : ∀ e ∈ o, e.Distinct)
    (name : String) : (f.set name o).Distinct := by
  refine .folder (nodup_names_set h.names name o) fun row hrow => ?_
  rcases mem_set hrow with hrow | ⟨-, hrow⟩
  · exact h.entries row hrow
  · exact ho row.2 hrow

/-- Nothing is left under a name whose entry is taken out. -/
theorem Distinct.get?_set_none (h : f.Distinct) (name : String) :
    (f.set name none).get? name = none := by
  have hn := h.names
  clear h
  induction f with
  | nil => rfl
  | cons r f ih =>
    obtain ⟨k, d⟩ := r
    obtain ⟨hk, hf⟩ := List.nodup_cons.mp hn
    by_cases hname : k = name
    · subst hname
      have hset : Folder.set k none ((k, d) :: f) = f := by simp [Folder.set]
      rw [hset]
      exact get?_eq_none_iff.mpr hk
    · have hne : (name == k) = false := by simpa using Ne.symm hname
      have hset : Folder.set name none ((k, d) :: f) = (k, d) :: Folder.set name none f := by
        simp [Folder.set, hname]
      rw [hset]
      simpa [Folder.get?, List.lookup_cons, hne] using ih hf

/-! ### Changes along a path -/

theorem updateAt_cons (hp : path ≠ []) (f : Folder) :
    updateAt change (name :: path) f =
      if nameLimit < name.utf8ByteSize then .error .nameTooLong
      else match f.get? name with
        | none => .error .notFound
        | some (.file _) => .error .notFolder
        | some (.folder inner) =>
          (updateAt change path inner).map fun inner => f.set name (some (.folder inner)) := by
  cases path with
  | nil => exact absurd rfl hp
  | cons p path =>
    unfold updateAt
    split <;> rfl

/-- At the end of a path of a single name, a change that goes well changes that entry. -/
theorem updateAt_single_eq_ok (h : updateAt change [name] f = .ok g) :
    Short name ∧ ∃ o, change (f.get? name) = .ok o ∧ g = f.set name o := by
  by_cases hs : Short name
  · rw [updateAt_single hs] at h
    cases ho : change (f.get? name) with
    | error e => simp [ho, Except.map] at h
    | ok o => exact ⟨hs, o, rfl, by simpa [ho, Except.map, eq_comm] using h⟩
  · rw [updateAt, if_pos (Nat.not_le.mp hs)] at h
    cases h

/-- A change further on that goes well changes what the first name of the path leads to. -/
theorem updateAt_cons_eq_ok (hp : path ≠ []) (h : updateAt change (name :: path) f = .ok g) :
    Short name ∧ ∃ inner inner', f.get? name = some (.folder inner) ∧
      updateAt change path inner = .ok inner' ∧ g = f.set name (some (.folder inner')) := by
  rw [updateAt_cons hp] at h
  split at h
  · cases h
  · rename_i hs
    cases hg : f.get? name with
    | none => simp [hg] at h
    | some e =>
      cases e with
      | file contents => simp [hg] at h
      | folder inner =>
        cases hi : updateAt change path inner with
        | error e => simp [hg, hi, Except.map] at h
        | ok inner' =>
          have hset : g = f.set name (some (.folder inner')) := by
            simpa [hg, hi, Except.map, eq_comm] using h
          exact ⟨Nat.not_lt.mp hs, inner, inner', rfl, hi, hset⟩

/-- What the change puts into a place has no name twice. -/
def Keeps (change : Option Entry → Except FileError (Option Entry)) : Prop :=
  ∀ o o', change o = .ok o' → (∀ e ∈ o, e.Distinct) → ∀ e ∈ o', e.Distinct

theorem keeps_fill (contents : Contents) : Keeps (fill contents) := by
  intro o o' h _ e he
  have hfile : o' = some (.file contents) := by
    rcases o with - | (c | f)
    · simpa [fill, eq_comm] using h
    · simpa [fill, eq_comm] using h
    · cases h
  obtain rfl : Entry.file contents = e := by simpa [hfile] using he
  exact .file contents

theorem keeps_build : Keeps build := by
  intro o o' h _ e he
  have hempty : o' = some (.folder []) := by
    cases o with
    | none => simpa [build, eq_comm] using h
    | some e => cases h
  obtain rfl : Entry.folder [] = e := by simpa [hempty] using he
  exact distinct_nil

theorem vacate_eq_ok {o o' : Option Entry} (h : vacate o = .ok o') :
    (∃ contents, o = some (.file contents)) ∧ o' = none := by
  cases o with
  | none => cases h
  | some e =>
    cases e with
    | folder f => cases h
    | file contents => exact ⟨⟨contents, rfl⟩, by simpa [vacate, eq_comm] using h⟩

theorem keeps_vacate : Keeps vacate := by
  intro o o' h _ e he
  obtain ⟨-, rfl⟩ := vacate_eq_ok h
  cases he

theorem keeps_removal :
    Keeps fun e => if e.isSome then .ok none else .error .notFound := by
  intro o o' h _ e he
  have hnone : o' = none := by
    cases o with
    | none => cases h
    | some d => simpa [eq_comm] using h
  simp [hnone] at he

/-- A change that keeps single entries distinct keeps a folder so, at whatever path it is made. -/
theorem Distinct.updateAt (hc : Keeps change) (hf : f.Distinct)
    (h : Folder.updateAt change path f = .ok g) : g.Distinct := by
  induction path generalizing f g with
  | nil => cases h
  | cons name path ih =>
    by_cases hp : path = []
    · subst hp
      obtain ⟨-, o, ho, rfl⟩ := updateAt_single_eq_ok h
      exact hf.set (hc _ _ ho fun e he => hf.get? he) name
    · obtain ⟨-, inner, inner', hinner, hi, rfl⟩ := updateAt_cons_eq_ok hp h
      refine hf.set (fun e he => ?_) name
      obtain rfl : Entry.folder inner' = e := by simpa using he
      exact ih (hf.get? hinner) hi

theorem Distinct.attempt (hc : Keeps change) (hf : f.Distinct) (path : List String) :
    Distinct (Workspace.attempt (Folder.updateAt change path) f) := by
  unfold Workspace.attempt
  cases hu : Folder.updateAt change path f with
  | error e => exact hf
  | ok g => exact hf.updateAt hc hu

/-! ### What is read at a path -/

theorem read?_nil (f : Folder) : f.read? [] = none := rfl

theorem read?_cons (name : String) (path : List String) (f : Folder) :
    f.read? (name :: path) =
      if nameLimit < name.utf8ByteSize then none
      else match f.get? name with
        | none => none
        | some (.file contents) => if path = [] then some contents else none
        | some (.folder inner) => Folder.read? path inner := by
  by_cases hl : nameLimit < name.utf8ByteSize
  · simp only [read?, at?, find, if_pos hl, Except.toOption]
  · simp only [read?, at?, find, if_neg hl]
    cases hg : f.get? name with
    | none => cases path <;> rfl
    | some e => cases path <;> cases e <;> rfl

/-- What is read at a path is the same in two folders with the same entry under its first name. -/
theorem read?_congr (h : f.get? name = g.get? name) (path : List String) :
    f.read? (name :: path) = g.read? (name :: path) := by
  rw [read?_cons, read?_cons, h]

theorem read?_set_folder (hs : Short name) (f inner : Folder) (path : List String) :
    Folder.read? (name :: path) (f.set name (some (.folder inner))) = inner.read? path := by
  rw [read?_cons, if_neg (Nat.not_lt.mpr hs), get?_set_self]

/-! ### The removal of a file -/

/-- A file that is read can be removed. -/
theorem exists_removeFile_of_read? {contents : Contents} (h : f.read? p = some contents) :
    ∃ g, removeFile p f = .ok g := by
  induction p generalizing f with
  | nil => simp [read?_nil] at h
  | cons name p ih =>
    rw [read?_cons] at h
    split at h
    · cases h
    · rename_i hs
      cases hg : f.get? name with
      | none => simp [hg] at h
      | some e =>
        cases e with
        | file contents =>
          obtain rfl : p = [] := by
            cases p with
            | nil => rfl
            | cons other p => simp [hg] at h
          refine ⟨f.set name none, ?_⟩
          rw [removeFile, updateAt_single (Nat.not_lt.mp hs), hg]
          rfl
        | folder inner =>
          have hinner : Folder.read? p inner = some contents := by simpa [hg] using h
          have hp : p ≠ [] := by
            rintro rfl
            simp [read?_nil] at hinner
          obtain ⟨g, hremove⟩ := ih hinner
          refine ⟨f.set name (some (.folder g)), ?_⟩
          rw [removeFile] at hremove ⊢
          rw [updateAt_cons hp, if_neg hs, hg]
          simp only [hremove, Except.map]

/-- A removal that goes well takes away what was read at its path, and nothing that is read at
another. -/
theorem read?_of_removeFile (hf : f.Distinct) (h : removeFile p f = .ok g) (q : List String) :
    g.read? q = if q = p then none else f.read? q := by
  induction p generalizing f g q with
  | nil => cases h
  | cons name p ih =>
    cases q with
    | nil => simp [read?_nil]
    | cons other q =>
      by_cases hp : p = []
      · subst hp
        obtain ⟨-, o, ho, rfl⟩ := updateAt_single_eq_ok h
        obtain ⟨⟨contents, hfile⟩, rfl⟩ := vacate_eq_ok ho
        by_cases hn : other = name
        · subst hn
          have hgone : Folder.read? (other :: q) (f.set other none) = none := by
            rw [read?_cons, hf.get?_set_none]
            split <;> rfl
          rw [hgone]
          by_cases hq : q = []
          · simp [hq]
          · rw [if_neg (by simpa using hq), read?_cons, hfile]
            simp [hq]
        · rw [if_neg (by simp [hn])]
          exact read?_congr (get?_set_of_ne hn f none) q
      · obtain ⟨hs, inner, inner', hinner, hi, rfl⟩ := updateAt_cons_eq_ok hp h
        by_cases hn : other = name
        · subst hn
          rw [read?_set_folder hs, ih (hf.get? hinner) hi, read?_cons,
            if_neg (Nat.not_lt.mpr hs), hinner]
          simp
        · rw [if_neg (by simp [hn])]
          exact read?_congr (get?_set_of_ne hn f _) q

/-- After the removal of a file has been attempted nothing is read at its path, and at any other path
what was read there before. -/
theorem read?_attempt_removeFile (hf : f.Distinct) (p q : List String) :
    Folder.read? q (Workspace.attempt (removeFile p) f) = if q = p then none else f.read? q := by
  unfold Workspace.attempt
  cases h : removeFile p f with
  | ok g => exact read?_of_removeFile hf h q
  | error e =>
    have hnone : f.read? p = none := by
      cases hr : f.read? p with
      | none => rfl
      | some contents =>
        obtain ⟨g, hg⟩ := exists_removeFile_of_read? hr
        rw [h] at hg
        cases hg
    by_cases hq : q = p
    · rw [if_pos hq, hq]
      exact hnone
    · rw [if_neg hq]

end Folder

end Retrace
