/-!
Membership of a number in a table of disjoint ranges that increase, by halving the table.
-/
namespace Retrace.Text

/-- Looks between the places `lo` and `hi` of the table for a range that holds `n`. -/
def inRangesFrom (table : Array (Nat × Nat)) (n : Nat) : Nat → Nat → Nat → Bool
  | 0, _, _ => false
  | fuel + 1, lo, hi =>
    if lo < hi then
      let mid := (lo + hi) / 2
      match table[mid]? with
      | none => false
      | some (a, b) =>
        if n < a then inRangesFrom table n fuel lo mid
        else if b < n then inRangesFrom table n fuel (mid + 1) hi
        else true
    else false

/-- Whether a range of the table holds `n`. -/
def inRanges (table : Array (Nat × Nat)) (n : Nat) : Bool :=
  inRangesFrom table n table.size 0 table.size

end Retrace.Text
