import Retrace.Json.Reader
import Retrace.Number.Read
/-!
Numbers in documents. A number without fraction and exponent that fits into sixty-four bits is a
whole number; any other is a floating point number. Digits are gathered as long as they fit into
sixty-four bits, and powers of ten are then applied by rounded multiplication or division, so that
the result may differ in its last place from the number nearest to the digits.
-/
namespace Retrace.Json

open Retrace.Text Retrace.Number

/-- A number in a document. -/
inductive Numeral where
  | whole (n : Int)
  | float (x : Binary)
  deriving DecidableEq, Repr

namespace Numeral

/-- What a number is when something else is wanted. -/
def found : Numeral → Found
  | whole n => .whole n
  | float x => .float x

/-- The greatest number that gathered digits may spell. -/
def gatherLimit : Nat := 0xFFFFFFFFFFFFFFFF

/-- The greatest exponent that is told apart from one without end. -/
def exponentLimit : Nat := 0x7FFFFFFF

def digit? (p : Piece) : Option Nat := (p.filter isDigit).map digitValue

/-- Takes digits as long as the number they spell after those of `n` stays below a limit. The answer
is the number, how many digits were taken, and the rest. -/
def gather (limit n : Nat) : Input → Nat × Nat × Input
  | [] => (n, 0, [])
  | p :: r =>
    match digit? p with
    | some d =>
      if limit < n * 10 + d then (n, 0, p :: r)
      else
        let (m, k, r) := gather limit (n * 10 + d) r
        (m, k + 1, r)
    | none => (n, 0, p :: r)

def seesDigit (s : Input) : Bool := s.head?.any fun p => (digit? p).isSome

/-- Passes over digits, counting them. -/
def passDigits (s : Input) : Nat × Input :=
  ((s.takeWhile fun p => (digit? p).isSome).length, s.dropWhile fun p => (digit? p).isSome)

/-- Applies a power of ten. One that is too small for a table of powers is applied in steps. -/
def applyPower (x : Binary) : Nat → Int → Option Binary
  | 0, _ => some x
  | fuel + 1, e =>
    if e.natAbs ≤ 308 then
      let power := Binary.ofNat .double (Nat.pow 10 e.natAbs)
      if 0 ≤ e then (some (x.mul .double power)).filter Binary.isFinite
      else some (x.div .double power)
    else if x.isZero then some x
    else if 0 ≤ e then none
    else applyPower (x.div .double (Binary.ofNat .double (Nat.pow 10 308))) fuel (e + 308)

/-- The floating point number of gathered digits and an exponent. -/
def ofParts (negative : Bool) (n : Nat) (e : Int) : Reader Numeral :=
  match applyPower (Binary.ofNat .double n) 4 e with
  | some x => return float (if negative then x.negate else x)
  | none => Reader.fail .outOfRange 0

/-- A sign before an exponent, and whether the exponent is negative. -/
def exponentSign : Input → Bool × Input
  | some '+' :: r => (false, r)
  | some '-' :: r => (true, r)
  | r => (false, r)

/-- The exponent of a number, whose digits stand for `n * 10 ^ e` so far. An exponent beyond all
bounds gives zero, or is out of range. -/
def exponent (negative : Bool) (n : Nat) (e : Int) : Reader Numeral := fun s =>
  let (down, s) := exponentSign s
  if s.isEmpty then Reader.fail (.ended .value) 0 s
  else if !seesDigit s then Reader.fail .badNumber 1 s
  else
    let (k, _, r) := gather exponentLimit 0 s
    if seesDigit r then
      if n ≠ 0 ∧ !down then Reader.fail .outOfRange 1 r
      else .ok (float (.finite negative 0 Precision.double.lowest), (passDigits r).2)
    else ofParts negative n (if down then e - k else e + k) r

def seesExponent (s : Input) : Bool := s.head?.any fun p => p = some 'e' || p = some 'E'

/-- What follows the digits of a number with a fraction. -/
def afterFraction (negative : Bool) (n : Nat) (e : Int) : Reader Numeral := fun s =>
  if seesExponent s then exponent negative n e s.tail else ofParts negative n e s

def fraction (negative : Bool) (n : Nat) (e : Int) : Reader Numeral := fun s =>
  let (m, k, r) := gather gatherLimit n s
  if seesDigit r then afterFraction negative m (e - k) (passDigits r).2
  else if k = 0 then
    if r.isEmpty then Reader.fail (.ended .value) 0 r else Reader.fail .badNumber 1 r
  else afterFraction negative m (e - k) r

/-- A number without fraction and exponent. Zero with a sign is a floating point number, as is a
number that does not fit. -/
def ofDigits (negative : Bool) (n : Nat) : Numeral :=
  if !negative then whole n
  else if n = 0 ∨ 0x8000000000000000 < n then float (Binary.ofNat .double n).negate
  else whole (-n)

/-- What follows the gathered digits of a number, with the count of those that did not fit. -/
def afterDigits (negative : Bool) (n extra : Nat) : Reader Numeral := fun s =>
  if s.head? = some (some '.') then fraction negative n extra s.tail
  else if seesExponent s then exponent negative n extra s.tail
  else if extra = 0 then .ok (ofDigits negative n, s)
  else ofParts negative n extra s

/-- A number after its sign. -/
def unsigned (negative : Bool) : Reader Numeral := fun s =>
  match s with
  | [] => Reader.fail (.ended .value) 0 s
  | p :: r =>
    if p = some '0' then
      if seesDigit r then Reader.fail .badNumber 1 r else afterDigits negative 0 0 r
    else if seesDigit s then
      let (n, _, r) := gather gatherLimit 0 s
      let (extra, r) := passDigits r
      afterDigits negative n extra r
    else Reader.fail .badNumber 1 s

def read : Reader Numeral := fun s =>
  if s.head? = some (some '-') then unsigned true s.tail else unsigned false s

/-! ### Passing over numbers -/

def skipExponent : Reader Unit := fun s =>
  let s := (exponentSign s).2
  if seesDigit s then .ok ((), (passDigits s).2) else Reader.fail .badNumber 1 s

def skipFraction : Reader Unit := fun s =>
  let (k, r) := passDigits s
  if k = 0 then Reader.fail .badNumber 1 r
  else if seesExponent r then skipExponent r.tail
  else .ok ((), r)

/-- Passes over what follows the digits of a number. -/
def skipTail : Reader Unit := fun s =>
  if s.head? = some (some '.') then skipFraction s.tail
  else if seesExponent s then skipExponent s.tail
  else .ok ((), s)

def skip : Reader Unit := fun s =>
  let s := if s.head? = some (some '-') then s.tail else s
  match s with
  | [] => Reader.fail .badNumber 0 s
  | p :: r =>
    if p = some '0' then
      if seesDigit r then Reader.fail .badNumber 1 r else skipTail r
    else if seesDigit s then skipTail (passDigits s).2
    else Reader.fail .badNumber 1 s

end Numeral

end Retrace.Json
