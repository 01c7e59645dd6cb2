import Retrace.Proofs.Json.Parts

/-! Written values stand on one line: the line feeds in a text are written as escapes. -/
namespace Retrace.Json

open Retrace.Text Reader

variable {letters : Letters} {t : List Char} {ts : List (List Char)}

/-- A text without a line feed. -/
def OneLine (t : List Char) : Prop := '\n' ∉ t

instance (t : List Char) : Decidable (OneLine t) := inferInstanceAs (Decidable ('\n' ∉ t))

theorem letter_ne_feed {c l : Char} (h : letterChar? l = some c) : l ≠ '\n' := by
  rintro rfl
  simp [letterChar?] at h

theorem oneLine_escape (hl : Sound letters) (c : Char) : OneLine (escape letters c) := by
  unfold escape OneLine
  by_cases hq : c = '"'
  · simp [hq]
  by_cases hb : c = '\\'
  · simp [hb]
  simp only [if_neg hq, if_neg hb]
  cases hm : letters.lookup c with
  | some l => simpa using (letter_ne_feed (hl c l hm)).symm
  | none =>
    by_cases hc : c.toNat < 32
    · have hd : ∀ n < 32, '\n' ≠ hexDigit (n / 16) ∧ '\n' ≠ hexDigit (n % 16) := by decide
      simp [hc, escapeCode, hd c.toNat hc]
    · have : '\n' ≠ c := by
        rintro rfl
        exact hc (by decide)
      simpa [hc] using this

theorem oneLine_quoteWith (hl : Sound letters) (u : List Char) :
    OneLine (quoteWith letters u) := by
  intro h
  have hm : ∃ c ∈ u, '\n' ∈ escape letters c := by simpa [quoteWith] using h
  obtain ⟨c, _, hc⟩ := hm
  exact oneLine_escape hl c hc

theorem oneLine_toString (n : Int) : OneLine (toString n).toList := by
  rw [toList_toString_int]
  intro h
  rcases List.mem_append.mp h with h | h
  · split at h <;> simp at h
  · exact absurd (Nat.isDigit_of_mem_toDigits (by decide) (by decide) h) (by decide)

theorem oneLine_join (h : ∀ t ∈ ts, OneLine t) : OneLine (join [','] ts) := by
  cases ts with
  | nil => simp [join, OneLine]
  | cons t ts =>
    rw [join_cons]
    intro hm
    rcases List.mem_append.mp hm with hm | hm
    · exact h t (by simp) hm
    · obtain ⟨u, hu, hm⟩ := List.mem_flatMap.mp hm
      exact h u (by simp [hu]) (by simpa using hm)

theorem oneLine_listText (h : ∀ t ∈ ts, OneLine t) : OneLine (listText ts) := by
  have := oneLine_join h
  simpa [listText, OneLine] using this

theorem oneLine_recordText {fs : List (String × List Char)} (h : ∀ f ∈ fs, OneLine f.2) :
    OneLine (recordText fs) := by
  have hf : ∀ t ∈ fs.map fieldText, OneLine t := by
    intro t ht
    obtain ⟨f, hf, rfl⟩ := List.mem_map.mp ht
    intro hm
    rcases List.mem_append.mp hm with hm | hm
    · exact oneLine_quoteWith sound_recordLetters _ hm
    · exact h f hf (by simpa using hm)
  have hne : '\n' ≠ Char.ofNat 123 ∧ '\n' ≠ Char.ofNat 125 := by decide
  have := oneLine_join hf
  simpa [recordText, OneLine, hne] using this

end Retrace.Json
