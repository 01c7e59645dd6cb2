import Retrace.Source.LiteralShape
/-!
What a literal stands for. The readers here are given texts that `literalLength?` accepts.
-/
namespace Retrace.Source

open Retrace.Text

/-- The value of a literal. Numbers keep their suffix; the digits of a decimal number are those of
the text without underscores and without the plus sign of its exponent. A literal of any other
kind stands for its own text. -/
inductive Literal where
  | text (chars : List Char)
  | char (c : Char)
  | byte (b : UInt8)
  | truth (b : Bool)
  | whole (n : Nat) (suffix : List Char)
  | decimal (digits suffix : List Char)
  | other (text : List Char)
  deriving DecidableEq, Repr

/-- The character that an escape stands for, given what follows the backslash. -/
def escaped : List Char → Char
  | 'x' :: hi :: lo :: _ =>
    Char.ofNat ((hexValue? hi).getD 0 * 16 + (hexValue? lo).getD 0)
  | 'u' :: _ :: s => Char.ofNat ((codePoint? 0 0 0 s).elim 0 (·.1))
  | 'n' :: _ => '\n'
  | 'r' :: _ => '\r'
  | 't' :: _ => '\t'
  | '0' :: _ => Char.ofNat 0
  | c :: _ => c
  | [] => Char.ofNat 0

/-- The content of a quoted body, whose next `skip` characters belong to an escape. A line ending
with a carriage return stands for a line feed. -/
def unquoted : Nat → List Char → List Char
  | _, [] => []
  | skip + 1, _ :: s => unquoted skip s
  | 0, '"' :: _ => []
  | 0, '\r' :: s => '\n' :: unquoted 1 s
  | 0, '\\' :: s =>
    if s.head? = some '\n' ∨ s.head? = some '\r' then unquoted ((continuationLength? 0 s).getD 0) s
    else escaped s :: unquoted ((escapeLength? .chars s).getD 0) s
  | 0, c :: s => c :: unquoted 0 s

/-- The content of a raw body, which stays as it is written. -/
def unquotedRaw (s : List Char) : List Char :=
  let hashes := run (· == '#') s
  let body := s.drop (hashes + 1)
  body.take ((rawBodyLength? .chars hashes 0 body).getD 0 - (hashes + 1))

/-- The character of a character or byte literal after its opening quote. -/
def single : List Char → Char
  | '\\' :: s => escaped s
  | c :: _ => c
  | [] => Char.ofNat 0

/-- Whether an exponent with a digit follows its letter in a number, or a sign that makes the
number decimal whatever comes after it. -/
def hasExponent (s : List Char) : Bool :=
  let tail := s.dropWhile isDigitOrBar
  tail.head?.any (fun c => c == '+' || c == '-') ||
    ((s.takeWhile isDigitOrBar).any isDigit && (tail.isEmpty || isWord tail))

/-- Reads the digits of a whole number on. The answer is the value and the suffix; there is none
when the number turns out to be decimal. -/
def wholeFrom (base value : Nat) (found : Bool) : List Char → Option (Nat × List Char)
  | [] => if found then some (value, []) else none
  | c :: s =>
    let stop := if found && isWord (c :: s) then some (value, c :: s) else none
    if c = '_' then wholeFrom base value found s
    else if base = 10 ∧ c = '.' then none
    else if base = 10 ∧ isExponentMark c then if hasExponent s then none else stop
    else match hexValue? c with
      | none => stop
      | some d =>
        if d < base then wholeFrom base (value * base + d) true s
        else if isDigit c then none
        else stop

/-- The value and the suffix of a whole number. -/
def whole? (s : List Char) : Option (Nat × List Char) :=
  let (base, n) := announcedBase s
  wholeFrom base 0 false (s.drop n)

/-- The digits and the suffix of a decimal number. -/
def decimal? (s : List Char) : Option (List Char × List Char) := do
  let n ← floatDigits? s
  let digits := (s.take n).filter fun c => c != '_' && c != '+'
  return (digits.map fun c => if c = 'E' then 'e' else c, s.drop n)

/-- The value of a literal, given its text. -/
def Literal.ofText : List Char → Literal
  | '"' :: s => .text (unquoted 0 s)
  | 'r' :: s => .text (unquotedRaw s)
  | '\'' :: s => .char (single s)
  | 'b' :: '\'' :: s => .byte (single s).toNat.toUInt8
  | s =>
    if s.head?.any isDigit then
      match whole? s with
      | some (n, suffix) => .whole n suffix
      | none =>
        match decimal? s with
        | some (digits, suffix) => .decimal digits suffix
        | none => .other s
    else .other s

end Retrace.Source
