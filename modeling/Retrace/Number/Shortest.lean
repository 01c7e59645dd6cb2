import Retrace.Number.Binary
/-!
The fewest decimal digits that read back as a floating point number. A number stands for the
interval of the reals that round to it, ends included when its `m` is even. The digits tried are
those of the number's two neighbours on ever finer decimal grids.
-/
namespace Retrace.Number

/-- A decimal number: `digits * 10 ^ exponent`. -/
structure Decimal where
  digits : Nat
  exponent : Int
  deriving DecidableEq, Repr

/-- How a tie between two decimal numbers of the same length is broken. -/
inductive Tie where
  | up
  | even
  deriving DecidableEq, Repr

/-- The quotient `num / den` times `10 ^ k`, as a quotient. -/
def scaleRatio (num den : Nat) (k : Int) : Nat × Nat :=
  if 0 ≤ k then (num * Nat.pow 10 k.toNat, den) else (num, den * Nat.pow 10 (-k).toNat)

/-- The number of decimal digits of a natural number, continued with fuel. -/
def digitCountFrom : Nat → Nat → Nat
  | 0, _ => 0
  | fuel + 1, n => if n = 0 then 0 else 1 + digitCountFrom fuel (n / 10)

/-- The number of decimal digits of a natural number; zero has none. -/
def digitCount (n : Nat) : Nat := digitCountFrom (n.log2 + 1) n

/-- The greatest `e` with `10 ^ e ≤ num / den`, for positive numbers. -/
def log10Ratio (num den : Nat) : Int :=
  let e : Int := digitCount num - digitCount den
  let (a, b) := scaleRatio num den (-e)
  if b ≤ a then e else e - 1

/-- The interval of a number in quarters of its last place: its lower end, the number itself and
its upper end. Below a power of two the interval is narrower. -/
def quarters (p : Precision) (m : Nat) (q : Int) : Nat × Nat × Nat :=
  let narrow := m = Nat.pow 2 (p.bits - 1) ∧ p.lowest < q
  (4 * m - (if narrow then 1 else 2), 4 * m, 4 * m + 2)

/-- The neighbour of a number on the grid of multiples of `10 ^ u` that reads back as the number, if
one does. -/
def onGrid (p : Precision) (tie : Tie) (m : Nat) (q u : Int) : Option Nat :=
  let (lo, mid, hi) := quarters p m q
  let (a, b) := shiftRatio 1 1 (q - 2)
  let (sn, sd) := scaleRatio a b (-u)
  let d := mid * sn / sd
  let r := mid * sn - d * sd
  let closed := m % 2 = 0
  let below := if closed then lo * sn ≤ d * sd else lo * sn < d * sd
  let above := if closed then (d + 1) * sd ≤ hi * sn else (d + 1) * sd < hi * sn
  let upper := sd < 2 * r ∨ sd = 2 * r ∧ (tie = .up ∨ d % 2 = 1)
  if below ∧ above then some (if upper then d + 1 else d)
  else if below then some d
  else if above then some (d + 1)
  else none

/-- Tries ever finer grids, of `n` digits first. -/
def shortestFrom (p : Precision) (tie : Tie) (m : Nat) (q e : Int) : Nat → Nat → Decimal
  | 0, n => ⟨0, n⟩
  | fuel + 1, n =>
    match onGrid p tie m q (e - n + 1) with
    | some d => ⟨d, e - n + 1⟩
    | none => shortestFrom p tie m q e fuel (n + 1)

/-- A decimal number without zeros at the end of its digits. -/
def Decimal.strip : Nat → Decimal → Decimal
  | 0, d => d
  | fuel + 1, d =>
    if d.digits % 10 = 0 ∧ d.digits ≠ 0 then strip fuel ⟨d.digits / 10, d.exponent + 1⟩ else d

/-- The fewest digits that read back as a positive number; seventeen are always enough for the
precisions here. -/
def shortest (p : Precision) (tie : Tie) (m : Nat) (q : Int) : Decimal :=
  let (a, b) := Binary.ratio m q
  (shortestFrom p tie m q (log10Ratio a b) 20 1).strip 20

end Retrace.Number
