import Retrace.Number.Shortest
import Retrace.Text.Search
/-!
The written form of floating point numbers. A style fixes which numbers are written without an
exponent, and how an exponent is written.
-/
namespace Retrace.Number

/-- A style: the decimal exponents of the first digit that are written without an exponent (all of
them when no limits are given), whether a whole number shows a fraction, whether a positive exponent
has a sign, and how ties are broken. -/
structure Style where
  positional : Option (Int × Int)
  fraction : Bool
  signed : Bool
  tie : Tie

namespace Style

/-- Numbers as they are shown to a reader: never an exponent. -/
def plain : Style := ⟨none, false, false, .up⟩

/-- Numbers as they are shown inside the description of a larger value. -/
def described : Style := ⟨some (-4, 15), true, false, .up⟩

/-- Numbers in a record. -/
def record : Style := ⟨some (-5, 15), true, true, .even⟩

/-- A positive decimal number written without an exponent. -/
def renderPositional (fraction : Bool) (d : Decimal) : String :=
  let digits := (toString d.digits).toList
  let tail := if fraction then ".0" else ""
  if 0 ≤ d.exponent then
    String.ofList (digits ++ List.replicate d.exponent.toNat '0') ++ tail
  else
    let places := (-d.exponent).toNat
    let padded := List.replicate (places + 1 - digits.length) '0' ++ digits
    let whole := padded.length - places
    String.ofList (padded.take whole ++ '.' :: padded.drop whole)

/-- A positive decimal number written with an exponent. -/
def renderExponent (st : Style) (d : Decimal) : String :=
  let digits := (toString d.digits).toList
  let e : Int := d.exponent + digits.length - 1
  let mantissa := match digits with
    | c :: c' :: rest => c :: '.' :: c' :: rest
    | short => short
  let sign := if e < 0 then "-" else if st.signed then "+" else ""
  String.ofList mantissa ++ "e" ++ sign ++ toString e.natAbs

def renderDecimal (st : Style) (d : Decimal) : String :=
  let e : Int := d.exponent + (toString d.digits).length - 1
  match st.positional with
  | none => renderPositional st.fraction d
  | some (lo, hi) =>
    if d.digits = 0 ∨ lo ≤ e ∧ e ≤ hi then renderPositional st.fraction d else st.renderExponent d

def render (st : Style) (p : Precision) : Binary → String
  | .nan => "NaN"
  | .infinite negative => if negative then "-inf" else "inf"
  | .finite negative m q =>
    let d := if m = 0 then ⟨0, 0⟩ else shortest p st.tie m q
    (if negative then "-" else "") ++ st.renderDecimal d

end Style

end Retrace.Number
