/-!
Bytes as characters. Each character has a form of one to four bytes, and no other sequence of bytes
stands for one.
-/
namespace Retrace.Text

/-- A character, or a byte that belongs to none. -/
abbrev Piece := Option Char

namespace Piece

def size : Piece → Nat
  | some c => c.utf8Size
  | none => 1

end Piece

def byteCount (ps : List Piece) : Nat := ps.foldl (fun n p => n + p.size) 0

/-- How many bytes go with a first byte, and the bounds of the second one. The bounds keep out
forms that are too long, halves of pairs, and numbers beyond the last character. -/
def followers? (a : Nat) : Option (Nat × Nat × Nat) :=
  if a < 0xC2 then none
  else if a < 0xE0 then some (1, 0x80, 0xBF)
  else if a = 0xE0 then some (2, 0xA0, 0xBF)
  else if a = 0xED then some (2, 0x80, 0x9F)
  else if a < 0xF0 then some (2, 0x80, 0xBF)
  else if a = 0xF0 then some (3, 0x90, 0xBF)
  else if a < 0xF4 then some (3, 0x80, 0xBF)
  else if a = 0xF4 then some (3, 0x80, 0x8F)
  else none

/-- The bits of a first byte that belong to the character, by the number of bytes after it. -/
def leadBits (a : Nat) : Nat → Nat
  | 1 => a % 0x20
  | 2 => a % 0x10
  | _ => a % 8

/-- Takes `k` more bytes, the first of them between `lo` and `hi`. The answer is the character, if
the bytes are there, and the number of bytes that were right. -/
def follow (value size : Nat) : Nat → Nat → Nat → List UInt8 → Piece × Nat
  | 0, _, _, _ => (some (Char.ofNat value), size)
  | _ + 1, _, _, [] => (none, size)
  | k + 1, lo, hi, b :: s =>
    if lo ≤ b.toNat ∧ b.toNat ≤ hi then
      follow (value * 64 + b.toNat % 64) (size + 1) k 0x80 0xBF s
    else (none, size)

/-- What the first bytes stand for, and how many they are. -/
def firstPiece (a : UInt8) (s : List UInt8) : Piece × Nat :=
  if a.toNat < 0x80 then (some (Char.ofNat a.toNat), 1)
  else match followers? a.toNat with
    | some (k, lo, hi) => follow (leadBits a.toNat k) 1 k lo hi s
    | none => (none, 1)

/-- Goes through the bytes with `broken n` for a sequence of `n` bytes that breaks off. -/
def piecesWith (broken : Nat → List Piece) : Nat → List UInt8 → List Piece
  | fuel + 1, a :: s =>
    match firstPiece a s with
    | (some c, n) => some c :: piecesWith broken fuel (s.drop (n - 1))
    | (none, n) => broken n ++ piecesWith broken fuel (s.drop (n - 1))
  | _, _ => []

def pieces (s : List UInt8) : List Piece :=
  piecesWith (fun n => List.replicate n none) s.length s

/-- The text that pieces spell, if they are characters all. -/
def spelled? : List Piece → Option (List Char)
  | [] => some []
  | some c :: ps => (spelled? ps).map (c :: ·)
  | none :: _ => none

/-- The text of some bytes, if they are one. -/
def text? (s : List UInt8) : Option (List Char) := spelled? (pieces s)

/-- The character that stands for bytes that are no character. -/
def replacement : Char := Char.ofNat 0xFFFD

/-- The text of some bytes with a replacement for each sequence that breaks off. -/
def lossyText (s : List UInt8) : List Char :=
  (piecesWith (fun _ => [some replacement]) s.length s).filterMap id

theorem spelled?_map_some (s : List Char) : spelled? (s.map some) = some s := by
  induction s with
  | nil => rfl
  | cons c s ih => simp [spelled?, ih]

end Retrace.Text
