/-!
Binary floating point numbers. A finite number is `m * 2 ^ q`; rounding takes the nearest such
number that a precision has room for, and of two equally near ones the one with even `m`.
-/
namespace Retrace.Number

/-- The room for a number: the bits of `m`, and the least and the greatest `q`. -/
structure Precision where
  bits : Nat
  lowest : Int
  highest : Int
  deriving DecidableEq, Repr

namespace Precision

/-- Sixty-four bit numbers. -/
def double : Precision := ⟨53, -1074, 971⟩

/-- Thirty-two bit numbers. -/
def single : Precision := ⟨24, -149, 104⟩

end Precision

/-- A floating point number. -/
inductive Binary where
  | nan
  | infinite (negative : Bool)
  | finite (negative : Bool) (m : Nat) (q : Int)
  deriving DecidableEq, Repr

/-- A quotient rounded to the nearest whole number, a half to the even one. -/
def roundDiv (num den : Nat) : Nat :=
  let d := num / den
  let r := num % den
  if 2 * r < den then d
  else if den < 2 * r then d + 1
  else d + d % 2

/-- The quotient `num / den` times `2 ^ k`, as a quotient. -/
def shiftRatio (num den : Nat) (k : Int) : Nat × Nat :=
  if 0 ≤ k then (num * Nat.pow 2 k.toNat, den) else (num, den * Nat.pow 2 (-k).toNat)

/-- The greatest `e` with `2 ^ e ≤ num / den`, for positive numbers. -/
def log2Ratio (num den : Nat) : Int :=
  let e : Int := num.log2 - den.log2
  let (a, b) := shiftRatio num den (-e)
  if b ≤ a then e else e - 1

namespace Binary

/-- The number nearest to a quotient. -/
def ofRatio (p : Precision) (negative : Bool) (num den : Nat) : Binary :=
  if num = 0 then finite negative 0 p.lowest
  else
    let q := max (log2Ratio num den - (p.bits - 1)) p.lowest
    let (a, b) := shiftRatio num den (-q)
    let m := roundDiv a b
    let (m, q) := if m = Nat.pow 2 p.bits then (m / 2, q + 1) else (m, q)
    if p.highest < q then infinite negative else finite negative m q

def ofNat (p : Precision) (n : Nat) : Binary := ofRatio p false n 1

def negate : Binary → Binary
  | nan => nan
  | infinite s => infinite !s
  | finite s m q => finite (!s) m q

def isFinite : Binary → Bool
  | finite .. => true
  | _ => false

def isZero : Binary → Bool
  | finite _ 0 _ => true
  | _ => false

/-- A finite magnitude as a quotient. -/
def ratio (m : Nat) (q : Int) : Nat × Nat := shiftRatio m 1 q

/-- The same number with other room, rounded. -/
def round (p : Precision) : Binary → Binary
  | finite s m q => let (a, b) := ratio m q; ofRatio p s a b
  | x => x

/-- The rounded product of finite numbers; any other product does not occur. -/
def mul (p : Precision) : Binary → Binary → Binary
  | finite s m q, finite t n r =>
    let (a, b) := ratio (m * n) (q + r)
    ofRatio p (s != t) a b
  | infinite s, finite t .. => infinite (s != t)
  | _, _ => nan

/-- The rounded quotient of finite numbers with a divisor that is not zero; any other quotient does
not occur. -/
def div (p : Precision) : Binary → Binary → Binary
  | finite s m q, finite t n r =>
    let (a, b) := ratio m (q - r)
    ofRatio p (s != t) a (b * n)
  | infinite s, finite t .. => infinite (s != t)
  | _, _ => nan

end Binary

end Retrace.Number
