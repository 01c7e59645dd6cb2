import Retrace.Text.Space

/-! The first line of a text. -/
namespace Retrace.Text

variable {s t seen : List Char}

theorem linesFrom_line (h : '\n' ∉ s) :
    linesFrom seen (s ++ '\n' :: t) = dropReturn (seen.reverse ++ s) :: lines t := by
  induction s generalizing seen with
  | nil => simp [linesFrom, lines]
  | cons c s ih =>
    obtain ⟨hc, hs⟩ : c ≠ '\n' ∧ '\n' ∉ s := by simpa [eq_comm] using h
    simp [linesFrom, hc, ih hs]

/-- A text without line feeds is the line that ends with the next one. -/
theorem lines_line (h : '\n' ∉ s) (hr : s.getLast? ≠ some '\r') :
    lines (s ++ '\n' :: t) = s :: lines t := by
  simp [lines, linesFrom_line h, dropReturn, hr]

end Retrace.Text
