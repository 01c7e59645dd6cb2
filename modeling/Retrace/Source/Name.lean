import Retrace.Text.Search
import Retrace.Text.Word
/-!
Names: identifiers as they are written, raw ones with their mark.
-/
namespace Retrace.Source

open Retrace.Text

variable {s : List Char}

/-- What a raw identifier starts with. -/
def rawMark : List Char := "r#".toList

/-- Whether the text is an identifier, which may carry a raw mark. -/
def isName (s : List Char) : Bool :=
  match stripPrefix? rawMark s with
  | none => isWord s
  | some r => isWord r

structure Name where
  text : String
  shaped : isName text.toList
  deriving DecidableEq, Repr

theorem not_mem_of_isWord {c : Char} (h : isWord s) (hc : continuesWord c = false)
    (hs : startsWord c = false) : c ∉ s := by
  cases s with
  | nil => exact List.not_mem_nil
  | cons d s =>
    obtain ⟨hd, hrest⟩ : startsWord d = true ∧ s.all continuesWord = true := by
      simpa [isWord] using h
    intro hm
    rcases List.mem_cons.mp hm with rfl | hm
    · simp [hs] at hd
    · simp [List.all_eq_true.mp hrest c hm] at hc

/-- A name holds none of the other marks. -/
theorem Name.not_mem {c : Char} (n : Name) (hc : continuesWord c = false)
    (hs : startsWord c = false) (hr : c ∉ rawMark) : c ∉ n.text.toList := by
  have h := n.shaped
  unfold isName at h
  split at h
  · exact not_mem_of_isWord h hc hs
  · rename_i r hp
    rw [eq_append_of_stripPrefix? hp]
    intro hm
    rcases List.mem_append.mp hm with hm | hm
    · exact hr hm
    · exact not_mem_of_isWord h hc hs hm

theorem Name.text_ne_nil (n : Name) : n.text.toList ≠ [] := by
  intro hn
  have h := n.shaped
  rw [hn] at h
  simp [isName, rawMark, stripPrefix?, isWord] at h

end Retrace.Source
