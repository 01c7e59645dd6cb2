import Retrace.Proofs.Source.Backtracking
import Retrace.Run.Pipeline

/-! A source text of blanks alone is read as one without items: nothing in it backtracks, nothing is
called, and nothing is declared. -/
namespace Retrace.Source

open Retrace.Text

variable {c : Char} {s : List Char} {p source : String} {n fuel : Nat}

theorem blank_cons (h : blank (c :: s) = true) : isBlank c = true ∧ blank s = true := by
  simpa [blank] using h

/-- A blank is not the first character of a text that starts with something else. -/
theorem not_opens (hc : isBlank c = true) {d : Char} {ds : List Char} (hp : p.toList = d :: ds)
    (hd : isBlank d = false) : opens p (c :: s) = false := by
  have hne : d ≠ c := by
    rintro rfl
    rw [hc] at hd
    cases hd
  simp [opens, hp, stripPrefix?, hne]

/-- Blanks are passed over to the end. -/
theorem gapLengthFrom_blank (h : blank s = true) (hf : s.length ≤ fuel) :
    gapLengthFrom fuel n s = n + s.length := by
  induction s generalizing fuel n with
  | nil => cases fuel <;> rfl
  | cons c s ih =>
    obtain ⟨fuel, rfl⟩ : ∃ k, fuel = k + 1 := ⟨fuel - 1, by simp at hf; omega⟩
    obtain ⟨hc, hs⟩ := blank_cons h
    have hline : opensLineComment (c :: s) = false := by
      simp [opensLineComment, not_opens hc (p := "//") rfl (by decide)]
    have hempty : opens "/**/" (c :: s) = false := not_opens hc rfl (by decide)
    have hblock : opensBlockComment (c :: s) = false := by
      simp [opensBlockComment, not_opens hc (p := "/*") rfl (by decide)]
    have hgap : isGap c = true := by simp [isGap, hc]
    rw [gapLengthFrom]
    simp only [hline, hempty, hblock, hgap, Bool.false_eq_true, if_false, if_true]
    rw [ih hs (by simpa using hf), List.length_cons]
    omega

theorem head?_ne_of_blank {d : Char} (h : blank s = true) (hd : isBlank d = false) :
    s.head? ≠ some d := by
  cases s with
  | nil => exact nofun
  | cons c s =>
    intro he
    obtain rfl : c = d := by simpa using he
    rw [(blank_cons h).1] at hd
    cases hd

theorem tokens_blank (h : blank s = true) : tokens s = .ok [] := by
  have hmark : s.head? ≠ some (Char.ofNat 0xFEFF) := head?_ne_of_blank h (by decide)
  have hgap : gapLength s = s.length := by
    rw [gapLength, gapLengthFrom_blank h (Nat.le_refl _), Nat.zero_add]
  have hrest : ((Cursor.ofText s).skip s.length).rest = [] := by
    rw [Cursor.skip_rest]
    exact List.drop_length
  have hdoc : docComment? [] = none := by decide
  simp only [tokens, if_neg hmark, tokensFrom]
  have hofText : (Cursor.ofText s).rest = s := rfl
  simp only [hofText, hgap, hrest, hdoc, List.reverse_nil]

theorem body_blank (h : blank s = true) : body s = s := by
  have hmark : s.head? ≠ some (Char.ofNat 0xFEFF) := head?_ne_of_blank h (by decide)
  have hname : namesInterpreter s = false := by
    cases s with
    | nil => rfl
    | cons c s =>
      have hne : '#' ≠ c := fun he => head?_ne_of_blank h (d := '#') (by decide) (by simp [← he])
      simp [namesInterpreter, stripPrefix?, hne]
  simp [body, hmark, hname]

theorem Snippet.read_blank (h : blank source.toList = true) :
    Snippet.read source = .ok ⟨source.toList, []⟩ := by
  rw [Snippet.read, body_blank h, Source.read, lex, tokens_blank h]
  rfl

end Retrace.Source

namespace Retrace

open Source Text

variable {source : String}

/-- Of a source text of blanks nothing can be made: no graph, no trace, and no run. -/
theorem ofSource_blank (h : blank source.toList = true) (o : GraphOptions) :
    StaticGraph.ofSource source o = .error .noBacktracking :=
  StaticGraph.ofSource_of_none (Snippet.read_blank h) rfl

theorem staticTrace_blank (h : blank source.toList = true) :
    staticTrace source = .error .noInstrumentation := by
  have hsites : (Snippet.mk source.toList []).sites = [] := by simp only [Snippet.sites, nodeSites]
  unfold staticTrace
  rw [Snippet.read_blank h]
  exact if_pos (by rw [hsites]; rfl)

theorem run_blank (h : blank source.toList = true) (host : Host) (o : RunOptions) :
    (Pipeline.run host source o).1 = .error .noDeclaration := by
  have hunit : (Snippet.mk source.toList []).unit? = none := by
    simp only [Snippet.unit?, Snippet.unitName?, List.findSome?_nil, Option.map_none]
  unfold Pipeline.run Pipeline.runWith
  rw [Snippet.read_blank h]
  simp only [hunit]

end Retrace
