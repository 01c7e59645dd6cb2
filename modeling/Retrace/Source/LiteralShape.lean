import Retrace.Text.Word
import Retrace.Source.Blank
/-!
Where a literal ends. Every function here looks at the start of a text and answers with the number
of characters the literal takes, or with nothing when none stands there.
-/
namespace Retrace.Source

open Retrace.Text

/-- The length of the run of characters that satisfy `p` at the start of a text. -/
def run (p : Char → Bool) (s : List Char) : Nat := (s.takeWhile p).length

/-- The length of an identifier without a raw mark. -/
def wordLength? : List Char → Option Nat
  | [] => none
  | c :: s => if startsWord c then some (1 + run continuesWord s) else none

/-- The length of the suffix that a literal may carry. -/
def suffixLength (s : List Char) : Nat := (wordLength? s).getD 0

/-- The length of a literal whose body takes `n` characters, its suffix counted. -/
def withSuffix (s : List Char) (n : Nat) : Nat := n + suffixLength (s.drop n)

/-- What the content of a quoted literal stands for: characters, bytes, or characters without the
zero character. -/
inductive Content where
  | chars
  | bytes
  | nonzero
  deriving DecidableEq, Repr

namespace Content

/-- Whether a character may stand in the content as it is. -/
def admits : Content → Char → Bool
  | chars, _ => true
  | bytes, c => c.toNat < 128
  | nonzero, c => c.toNat != 0

/-- Whether the two hexadecimal digits may be given after a hexadecimal escape. -/
def admitsHex (k : Content) (hi lo : Char) : Bool :=
  match hexValue? hi, hexValue? lo with
  | some a, some b =>
    match k with
    | chars => a < 8 && isDigit hi
    | bytes => true
    | nonzero => a != 0 || b != 0
  | _, _ => false

end Content

/-- The value of the digits of an escaped code point up to its closing brace, and the length of
what was read. At most six digits count, and underscores may follow the first. -/
def codePoint? (value digits n : Nat) : List Char → Option (Nat × Nat)
  | [] => none
  | c :: s =>
    match hexValue? c with
    | some d => if digits < 6 then codePoint? (value * 16 + d) (digits + 1) (n + 1) s else none
    | none =>
      if c = '_' ∧ 0 < digits then codePoint? value digits (n + 1) s
      else if c.toNat = 125 ∧ 0 < digits ∧ value.isValidChar then some (value, n + 1)
      else none

/-- The length of what follows the backslash of an escape. -/
def escapeLength? (k : Content) : List Char → Option Nat
  | 'x' :: hi :: lo :: _ => if k.admitsHex hi lo then some 3 else none
  | 'u' :: o :: s =>
    if k = .bytes ∨ o.toNat ≠ 123 then none
    else match codePoint? 0 0 0 s with
      | some (v, n) => if k = .nonzero ∧ v = 0 then none else some (n + 2)
      | none => none
  | '0' :: _ => if k = .nonzero then none else some 1
  | c :: _ => if c ∈ ['n', 'r', 't', '\\', '\'', '"'] then some 1 else none
  | [] => none

/-- The length of the blanks after a backslash that ends a line, which must be followed by more
text. -/
def continuationLength? (n : Nat) : List Char → Option Nat
  | [] => none
  | '\r' :: '\n' :: s => continuationLength? (n + 2) s
  | '\r' :: _ => none
  | c :: s => if c = ' ' ∨ c = '\t' ∨ c = '\n' then continuationLength? (n + 1) s else some n

/-- The length of a quoted body up to and with its closing quote, when `n` characters of it were
read and the next `skip` belong to an escape. -/
def quotedLength? (k : Content) (n : Nat) : Nat → List Char → Option Nat
  | _, [] => none
  | skip + 1, _ :: s => quotedLength? k (n + 1) skip s
  | 0, '"' :: _ => some (n + 1)
  | 0, '\r' :: s => if s.head? = some '\n' then quotedLength? k (n + 1) 1 s else none
  | 0, '\\' :: s =>
    if s.head? = some '\n' ∨ s.head? = some '\r' then
      match continuationLength? 0 s with
      | some m => quotedLength? k (n + 1) m s
      | none => none
    else match escapeLength? k s with
      | some m => quotedLength? k (n + 1) m s
      | none => none
  | 0, c :: s => if k.admits c then quotedLength? k (n + 1) 0 s else none

/-- The length of a raw body up to and with its closing quote and `hashes` marks, when `n`
characters of it were read. -/
def rawBodyLength? (k : Content) (hashes n : Nat) : List Char → Option Nat
  | [] => none
  | '\r' :: '\n' :: s => rawBodyLength? k hashes (n + 2) s
  | '\r' :: _ => none
  | c :: s =>
    if c = '"' ∧ s.take hashes = List.replicate hashes '#' then some (n + 1 + hashes)
    else if k.admits c then rawBodyLength? k hashes (n + 1) s
    else none

/-- The length of a raw literal after its mark letters. -/
def rawLength? (k : Content) (s : List Char) : Option Nat :=
  let hashes := run (· == '#') s
  match s.drop hashes with
  | '"' :: body => if hashes ≤ 255 then rawBodyLength? k hashes (hashes + 1) body else none
  | _ => none

/-- The length of a character or byte literal after its opening quote. -/
def singleLength? (k : Content) : List Char → Option Nat
  | '\\' :: s => do
    let n ← escapeLength? k s
    if (s.drop n).head? = some '\'' then some (n + 2) else none
  | c :: '\'' :: _ => if k = .bytes ∧ 128 ≤ c.toNat then none else some 2
  | _ => none

/-- The length of a literal in quotes, with its suffix. -/
def textLength? (s : List Char) : Option Nat :=
  Option.map (withSuffix s) <| match s with
    | '"' :: r => quotedLength? .chars 1 0 r
    | 'r' :: r => (rawLength? .chars r).map (· + 1)
    | 'b' :: '"' :: r => quotedLength? .bytes 2 0 r
    | 'b' :: 'r' :: r => (rawLength? .bytes r).map (· + 2)
    | 'c' :: '"' :: r => quotedLength? .nonzero 2 0 r
    | 'c' :: 'r' :: r => (rawLength? .nonzero r).map (· + 2)
    | 'b' :: '\'' :: r => (singleLength? .bytes r).map (· + 2)
    | '\'' :: r => (singleLength? .chars r).map (· + 1)
    | _ => none

def isDigitOrBar (c : Char) : Bool := isDigit c || c == '_'

/-- The length of an exponent after its letter: underscores, a sign, digits and underscores, with
one digit at least. -/
def exponentLength? (s : List Char) : Option Nat :=
  let bars := run (· == '_') s
  let signed := bars + (if ((s.drop bars).head?.any fun c => c == '+' || c == '-') then 1 else 0)
  let digits := (s.drop signed).takeWhile isDigitOrBar
  if digits.any isDigit then some (signed + digits.length) else none

def isExponentMark (c : Char) : Bool := c == 'e' || c == 'E'

/-- The length of the digits of a number with a point or an exponent. A point that another point or
an identifier follows is no part of a number. -/
def floatDigits? (s : List Char) : Option Nat :=
  if s.head?.any isDigit then
    let whole := run isDigitOrBar s
    match s.drop whole with
    | '.' :: r =>
      if r.head?.any fun c => c == '.' || startsWord c then none
      else
        let n := whole + 1 + run isDigitOrBar r
        match s.drop n with
        | c :: e =>
          if isExponentMark c then
            match exponentLength? e with
            | some m => some (n + 1 + m)
            | none => some n
          else some n
        | [] => some n
    | c :: e => if isExponentMark c then (exponentLength? e).map (whole + 1 + ·) else none
    | [] => none
  else none

/-- The base that the start of a number announces, and the length of the announcement. -/
def announcedBase : List Char → Nat × Nat
  | '0' :: 'x' :: _ => (16, 2)
  | '0' :: 'o' :: _ => (8, 2)
  | '0' :: 'b' :: _ => (2, 2)
  | _ => (10, 0)

/-- The length of digits in a base, when `n` characters of them were read. A decimal digit too
large for the base is refused; a letter too large for it ends the digits. -/
def baseDigits? (base n : Nat) (found : Bool) : List Char → Option Nat
  | [] => if found then some n else none
  | c :: s =>
    let stop := if found then some n else none
    if c = '_' then
      if !found && base = 10 then none else baseDigits? base (n + 1) found s
    else match hexValue? c with
      | none => stop
      | some d =>
        if d < base then baseDigits? base (n + 1) true s
        else if isDigit c then none
        else stop

def wholeDigits? (s : List Char) : Option Nat :=
  let (base, n) := announcedBase s
  baseDigits? base n false (s.drop n)

/-- The length of a number whose digits take `n` characters, with its suffix, after which no
identifier may go on. -/
def numberEnd? (s : List Char) (n : Nat) : Option Nat :=
  let m := withSuffix s n
  if (s.drop m).head?.any continuesWord then none else some m

def numberLength? (s : List Char) : Option Nat :=
  ((floatDigits? s).bind (numberEnd? s)).or ((wholeDigits? s).bind (numberEnd? s))

def literalLength? (s : List Char) : Option Nat := (textLength? s).or (numberLength? s)

end Retrace.Source
