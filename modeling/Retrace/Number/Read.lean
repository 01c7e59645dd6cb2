import Retrace.Number.Binary
import Retrace.Text.Word
/-!
Reading numbers in decimal notation.
-/
namespace Retrace.Number

open Retrace.Text

/-- The number that decimal digits spell after the digits of `n`. -/
def digitsFrom (n : Nat) (s : List Char) : Nat := s.foldl (fun n c => n * 10 + digitValue c) n

/-- The number that decimal digits spell, if there is one digit at least and nothing else. -/
def readNat? (s : List Char) : Option Nat :=
  if !s.isEmpty && s.all isDigit then some (digitsFrom 0 s) else none

/-- A whole number between two bounds. It may have a plus sign, and a minus sign where negative
numbers are allowed. -/
def readInt? (lo hi : Int) (s : List Char) : Option Int := do
  let n : Int ← match s with
    | '+' :: r => (readNat? r).map Int.ofNat
    | '-' :: r => if lo < 0 then (readNat? r).map fun n => -(n : Int) else none
    | r => (readNat? r).map Int.ofNat
  if lo ≤ n ∧ n ≤ hi then some n else none

def readWord32? (s : List Char) : Option Nat := (readInt? 0 0xFFFFFFFF s).map Int.toNat

/-- The number nearest to `digits * 10 ^ exponent`. Exponents far out of range are decided by the
number of digits. -/
def ofDecimal (p : Precision) (negative : Bool) (digits : Nat) (exponent : Int) : Binary :=
  let size : Int := exponent + (toString digits).length
  if digits = 0 ∨ size < -400 then .finite negative 0 p.lowest
  else if 400 < size then .infinite negative
  else if 0 ≤ exponent then .ofRatio p negative (digits * Nat.pow 10 exponent.toNat) 1
  else .ofRatio p negative digits (Nat.pow 10 (-exponent).toNat)

/-- An exponent: digits after an optional sign. -/
def readExponent? (s : List Char) : Option Int :=
  match s with
  | '-' :: r => (readNat? r).map fun n => -(n : Int)
  | '+' :: r => (readNat? r).map Int.ofNat
  | r => (readNat? r).map Int.ofNat

/-- A number without sign: digits, a point, digits and an exponent, of which the digits may not all
be missing. -/
def readMagnitude? (p : Precision) (negative : Bool) (s : List Char) : Option Binary := do
  let whole := s.takeWhile isDigit
  let rest := s.dropWhile isDigit
  let (part, rest) := match rest with
    | '.' :: r => (r.takeWhile isDigit, r.dropWhile isDigit)
    | r => ([], r)
  if whole.isEmpty && part.isEmpty then none
  let exponent ← match rest with
    | [] => some 0
    | c :: r => if c = 'e' ∨ c = 'E' then readExponent? r else none
  return ofDecimal p negative (digitsFrom 0 (whole ++ part)) (exponent - part.length)

def readBinary? (p : Precision) (s : List Char) : Option Binary :=
  let (negative, r) := match s with
    | '-' :: r => (true, r)
    | '+' :: r => (false, r)
    | r => (false, r)
  let word := String.ofList (r.map Char.toLower)
  if word = "inf" ∨ word = "infinity" then some (.infinite negative)
  else if word = "nan" then some .nan
  else readMagnitude? p negative r

end Retrace.Number
