/-!
Blank characters, trimming and lines. A line ends with a line feed, and a carriage return right
before that line feed belongs to the ending; text after the last line feed is a line of its own.
-/
namespace Retrace.Text

variable {c : Char} {s t : List Char}

/-- A character with the Unicode property White_Space. -/
def isBlank (c : Char) : Bool :=
  let n := c.toNat
  (9 ≤ n && n ≤ 13) || n == 0x20 || n == 0x85 || n == 0xA0 || n == 0x1680 ||
    (0x2000 ≤ n && n ≤ 0x200A) || n == 0x2028 || n == 0x2029 || n == 0x202F || n == 0x205F ||
    n == 0x3000

def trimStart (s : List Char) : List Char := s.dropWhile isBlank

/-- Text without the longest suffix whose characters all satisfy `p`. -/
def dropEndWhile (p : Char → Bool) (s : List Char) : List Char :=
  (s.reverse.dropWhile p).reverse

def trimEnd (s : List Char) : List Char := dropEndWhile isBlank s

def trim (s : List Char) : List Char := trimEnd (trimStart s)

def blank (s : List Char) : Bool := s.all isBlank

/-- A line that a line feed ended, without the carriage return before the line feed. -/
def dropReturn (s : List Char) : List Char :=
  if s.getLast? = some '\r' then s.dropLast else s

/-- Continues the line read so far, whose characters are `seen` in reverse. -/
def linesFrom (seen : List Char) : List Char → List (List Char)
  | [] => if seen.isEmpty then [] else [seen.reverse]
  | c :: s => if c = '\n' then dropReturn seen.reverse :: linesFrom [] s else linesFrom (c :: seen) s

/-- The lines of a text without their endings. -/
def lines (s : List Char) : List (List Char) := linesFrom [] s

theorem linesFrom_ended (seen : List Char) :
    linesFrom seen (s ++ '\n' :: t) = linesFrom seen (s ++ ['\n']) ++ linesFrom [] t := by
  induction s generalizing seen with
  | nil => simp [linesFrom]
  | cons c s ih => by_cases hc : c = '\n' <;> simp [linesFrom, hc, ih]

/-- Joining two texts joins their lines when the first is empty or ends with a line feed. -/
theorem lines_append (h : s = [] ∨ s.getLast? = some '\n') : lines (s ++ t) = lines s ++ lines t := by
  obtain rfl | h := h
  · simp [lines, linesFrom]
  · obtain ⟨u, rfl⟩ := List.getLast?_eq_some_iff.1 h
    simpa [lines] using linesFrom_ended (s := u) (t := t) []

end Retrace.Text
