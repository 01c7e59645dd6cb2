import Retrace.Json.Fault
import Retrace.Text.Word
/-!
Reading off the front of a document. Each reader takes what it wants and leaves the rest.
-/
namespace Retrace.Json

open Retrace.Text

/-- A reader of documents that may fail. -/
abbrev Reader := StateT Input (Except Fault)

namespace Reader

variable {α : Type}

/-- Fails, `beyond` bytes behind the place where reading stands. -/
def fail (cause : Cause) (beyond : Nat) : Reader α := fun s => .error ⟨cause, s, some beyond, []⟩

/-- Fails because of what the document says. The reader of the part around it finds the place. -/
def refuse (cause : Cause) : Reader α := fun s => .error ⟨cause, s, none, []⟩

/-- A result that may be a refusal. -/
def ofExcept : Except Cause α → Reader α
  | .ok a => pure a
  | .error c => refuse c

/-- Gives a fault without a place the place where reading stands. -/
def settled (p : Reader α) : Reader α := fun s => (p s).mapError Fault.settle

/-- Notes that a fault arose in a part of the document. -/
def within (segment : Segment) (p : Reader α) : Reader α := fun s =>
  (p s).mapError fun f => { f with path := segment :: f.path }

/-- Takes a piece. -/
def skip : Reader Unit := fun s => .ok ((), s.tail)

/-- The blanks between the parts of a document. -/
def isGap (p : Piece) : Bool := p = some ' ' || p = some '\n' || p = some '\t' || p = some '\r'

/-- Takes blanks and looks at the piece after them. -/
def next : Reader (Option Piece) := fun s =>
  let s := s.dropWhile isGap
  .ok (s.head?, s)

/-- Takes the characters of a word. -/
def word : List Char → Reader Unit
  | [] => pure ()
  | c :: cs => fun s =>
    match s with
    | [] => fail (.ended .value) 0 s
    | p :: r => if p = some c then word cs r else fail .noWord 1 s

/-! ### Texts -/

/-- The code unit that four hexadecimal digits spell. -/
def codeUnit : Reader Nat := fun s =>
  match s with
  | some a :: some b :: some c :: some d :: r =>
    match hexValue? a, hexValue? b, hexValue? c, hexValue? d with
    | some a, some b, some c, some d => .ok (((a * 16 + b) * 16 + c) * 16 + d, r)
    | _, _, _, _ => fail .badEscape 4 s
  | _ => if byteCount s < 4 then fail (.ended .text) 0 [] else fail .badEscape 4 s

def isFirstHalf (n : Nat) : Bool := 0xD800 ≤ n && n < 0xDC00

def isSecondHalf (n : Nat) : Bool := 0xDC00 ≤ n && n < 0xE000

/-- Takes a mark that has to follow the first half of a pair. -/
def pairMark (c : Char) : Reader Unit := fun s =>
  match s with
  | [] => fail (.ended .text) 0 s
  | p :: r => if p = some c then .ok ((), r) else fail .missingHalf 1 s

/-- The character of a numbered escape. A character beyond the code units takes a pair of them. -/
def numbered : Reader Char := do
  let n ← codeUnit
  if isSecondHalf n then fail .loneHalf 0
  else if isFirstHalf n then
    pairMark '\\'
    pairMark 'u'
    let m ← codeUnit
    if isSecondHalf m then return Char.ofNat ((n - 0xD800) * 1024 + (m - 0xDC00) + 0x10000)
    else fail .loneHalf 0
  else return Char.ofNat n

/-- The characters that letters after a backslash stand for. -/
def letterChar? (c : Char) : Option Char :=
  match c with
  | '"' | '\\' | '/' => some c
  | 'b' => some (Char.ofNat 8)
  | 'f' => some (Char.ofNat 12)
  | 'n' => some '\n'
  | 'r' => some '\r'
  | 't' => some '\t'
  | _ => none

/-- What follows a backslash: `numbered` reads the escapes by number. -/
def escape (numbered : Reader Char) : Reader Char := fun s =>
  match s with
  | [] => fail (.ended .text) 0 s
  | p :: r =>
    match p with
    | some 'u' => numbered r
    | some c =>
      match letterChar? c with
      | some d => .ok (d, r)
      | none => fail .badEscape 1 s
    | none => fail .badEscape 1 s

/-- The pieces of a text up to the quote that closes it, `seen` being those before in reverse. -/
def piecesFrom : Nat → List Piece → Reader (List Piece)
  | 0, _ => fail (.ended .text) 0
  | fuel + 1, seen => fun s =>
    match s with
    | [] => fail (.ended .text) 0 s
    | p :: r =>
      if p = some '"' then .ok (seen.reverse, r)
      else if p = some '\\' then do
        let (c, r) ← escape numbered r
        piecesFrom fuel (some c :: seen) r
      else if p.any fun c => c.toNat < 32 then fail .controlCharacter 1 s
      else piecesFrom fuel (p :: seen) r

/-- The text after an opening quote. Bytes that are no character are at fault where the first of them
stands, though only once the text has been read to its end. -/
def text : Reader String := fun s => do
  let (ps, r) ← piecesFrom (s.length + 1) [] s
  match spelled? ps with
  | some cs => .ok (String.ofList cs, r)
  | none => fail .badCharacter 1 (s.dropWhile Option.isSome)

/-- Passes over a text after an opening quote. Numbered escapes are not paired here, and bytes that
are no character do no harm. -/
def skipTextFrom : Nat → Reader Unit
  | 0 => fail (.ended .text) 0
  | fuel + 1 => fun s =>
    match s with
    | [] => fail (.ended .text) 0 s
    | p :: r =>
      if p = some '"' then .ok ((), r)
      else if p = some '\\' then do
        let (_, r) ← escape (do let _ ← codeUnit; return ' ') r
        skipTextFrom fuel r
      else if p.any fun c => c.toNat < 32 then fail .controlCharacter 0 s
      else skipTextFrom fuel r

@[inherit_doc skipTextFrom]
def skipText : Reader Unit := fun s => skipTextFrom (s.length + 1) s

end Reader

end Retrace.Json
