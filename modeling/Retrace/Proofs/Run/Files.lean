import Retrace.Run.Files
import Retrace.Source.Name

/-! What changes inside a folder changes nothing around it. -/
namespace Retrace

open Text

namespace Folder

variable {f g : Folder} {name file other : String} {path : List String}

theorem get?_set_self (f : Folder) (name : String) (e : Entry) :
    (f.set name (some e)).get? name = some e := by
  induction f with
  | nil => simp [set, get?]
  | cons row f ih =>
    obtain ⟨k, d⟩ := row
    by_cases hk : k = name
    · simp [set, get?, hk]
    · have hne : (name == k) = false := by simpa using Ne.symm hk
      simpa [set, get?, hk, List.lookup_cons, hne] using ih

theorem get?_set_of_ne (h : other ≠ name) (f : Folder) (e : Option Entry) :
    (f.set name e).get? other = f.get? other := by
  have hne : (other == name) = false := by simpa using h
  induction f with
  | nil => cases e <;> simp [set, get?, List.lookup_cons, hne]
  | cons row f ih =>
    obtain ⟨k, d⟩ := row
    by_cases hk : k = name
    · subst hk
      cases e <;> simp [set, get?, List.lookup_cons, hne]
    · simp only [get?] at ih ⊢
      by_cases ho : other = k
      · simp [set, hk, ho]
      · have hok : (other == k) = false := by simpa using ho
        simp [set, hk, List.lookup_cons, hok, ih]

theorem set_set (f : Folder) (name : String) (e : Entry) (e' : Option Entry) :
    (f.set name (some e)).set name e' = f.set name e' := by
  induction f with
  | nil => simp [set]
  | cons row f ih =>
    obtain ⟨k, d⟩ := row
    by_cases hk : k = name
    · simp [set, hk]
    · simp [set, hk, ih]

theorem set_none (h : f.get? name = none) : f.set name none = f := by
  induction f with
  | nil => rfl
  | cons row f ih =>
    obtain ⟨k, d⟩ := row
    by_cases hk : k = name
    · simp [get?, hk] at h
    · have hne : (name == k) = false := by simpa using Ne.symm hk
      simp only [get?, List.lookup_cons, hne] at h
      simp [set, hk, ih h]

/-- A name that a folder can have an entry under. -/
def Short (name : String) : Prop := name.utf8ByteSize ≤ nameLimit

theorem makeFolder_eq_ok (h : f.makeFolder [name] = .ok g) :
    Short name ∧ f.get? name = none ∧ g = f.set name (some (.folder [])) := by
  unfold makeFolder updateAt at h
  split at h
  · cases h
  · rename_i hs
    cases hg : f.get? name with
    | none => exact ⟨Nat.not_lt.mp hs, rfl, by simpa [hg, build, Except.map, eq_comm] using h⟩
    | some e => simp [hg, build, Except.map] at h

theorem updateAt_single (hs : Short name) (change : Option Entry → Except FileError (Option Entry))
    (f : Folder) : updateAt change [name] f = (change (f.get? name)).map fun e => f.set name e := by
  rw [updateAt, if_neg (Nat.not_lt.mpr hs)]

/-- A change at a path inside a folder is the change of the entries of that folder. -/
theorem updateAt_inside (hs : Short name) (hp : path ≠ [])
    (change : Option Entry → Except FileError (Option Entry)) (f g : Folder) :
    updateAt change (name :: path) (f.set name (some (.folder g))) =
      (updateAt change path g).map fun g' => f.set name (some (.folder g')) := by
  cases path with
  | nil => exact absurd rfl hp
  | cons p path =>
    rw [updateAt, if_neg (Nat.not_lt.mpr hs)]
    simp only [get?_set_self, set_set]

theorem find_inside (hs : Short name) (f : Folder) (e : Entry) :
    find [name] (f.set name (some e)) = .ok e := by
  simp only [find, if_neg (Nat.not_lt.mpr hs), get?_set_self]

theorem write_eq_ok {contents : Contents} (h : f.write [file] contents = .ok g) :
    g = f.set file (some (.file contents)) := by
  unfold write updateAt at h
  split at h
  · cases h
  · cases he : f.get? file with
    | none => simpa [he, fill, Except.map, eq_comm] using h
    | some e => cases e <;> simp_all [fill, Except.map, eq_comm]

end Folder

/-- The name of a file or a folder: something that leads neither back nor further on. -/
structure Plain (s : String) : Prop where
  nonempty : s ≠ ""
  stays : s ≠ "."
  forth : s ≠ ".."
  whole : '/' ∉ s.toList

theorem splitAt_of_not_mem {c : Char} {s : List Char} (h : c ∉ s) : splitAt c s = [s] := by
  induction s with
  | nil => rfl
  | cons d s ih =>
    obtain ⟨hd, hs⟩ : c ≠ d ∧ c ∉ s := by simpa using h
    simp [splitAt, Ne.symm hd, ih hs]

/-- A plain name leads one step on. -/
theorem pathFrom_plain {s : String} (h : Plain s) (path : List String) :
    pathFrom path s = path ++ [s] := by
  have hne : s.toList ≠ [] := fun hn => h.nonempty (String.toList_eq_nil_iff.mp hn)
  have hdot : s.toList ≠ ['.'] := fun hd => h.stays (String.toList_inj.mp hd)
  simp [pathFrom, splitAt_of_not_mem h.whole, hne, hdot, stepInto, h.forth]

theorem ne_of_mem {c : Char} {s u : String} (hs : c ∈ s.toList) (hu : c ∉ u.toList) : s ≠ u := by
  rintro rfl
  exact hu hs

theorem plain_name (n : Source.Name) : Plain n.text := by
  have hslash : '/' ∉ n.text.toList := n.not_mem (by decide) (by decide) (by decide)
  have hdot : '.' ∉ n.text.toList := n.not_mem (by decide) (by decide) (by decide)
  refine ⟨fun h => n.text_ne_nil (by rw [h]; rfl), ?_, ?_, hslash⟩
  · exact (ne_of_mem (List.mem_singleton_self '.') hdot).symm
  · exact (ne_of_mem (c := '.') (by decide) hdot).symm

theorem plain_source (n : Source.Name) : Plain (n.text ++ ".rs") := by
  have hs : 's' ∈ (n.text ++ ".rs").toList := by simp
  have hslash : '/' ∉ (n.text ++ ".rs").toList := by simpa using (plain_name n).whole
  exact ⟨ne_of_mem hs (by decide), ne_of_mem hs (by decide), ne_of_mem hs (by decide), hslash⟩

end Retrace
