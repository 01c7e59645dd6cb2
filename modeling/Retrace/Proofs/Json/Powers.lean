import Retrace.Json.Numeral
import Retrace.Proofs.Number.Shortest

/-! A power of ten is applied to the shortest digits of a finite number of sixty-four bits without
leaving the range of these numbers, although each step of it is rounded. -/
namespace Retrace.Json.Numeral

open Retrace.Number

variable {m : Nat} {q e : Int} {x : ℚ} {d : Decimal}

/-- A negative power of ten takes divisions only, which do not fail. -/
theorem applyPower_neg (y : Binary) (fuel : Nat) (he : e < 0) : (applyPower y fuel e).isSome := by
  induction fuel generalizing y e with
  | zero => rfl
  | succ fuel ih =>
    rw [applyPower]
    split
    · rw [if_neg (by omega)]
      rfl
    · rename_i hbig
      split
      · rfl
      · rw [if_neg (by omega)]
        exact ih _ (by omega)

/-- Digits that are below the overflow by three roundings stay below it. -/
theorem applyPower_within (hd : d.Within x) (hx : x * (1 + 1 / 2 ^ 53) ^ 2 < overflow)
    (he : 0 ≤ d.exponent) : (applyPower (Binary.ofNat .double d.digits) 4 d.exponent).isSome := by
  obtain ⟨n, hn⟩ := Int.eq_ofNat_of_zero_le he
  have hle : (d.digits : ℚ) * 10 ^ n ≤ x := by
    have hle := hd.le
    rwa [hn, zpow_natCast] at hle
  have hslack : (1 : ℚ) ≤ (1 + 1 / 2 ^ 53) ^ 2 := by norm_num
  have hpos : (0 : ℚ) ≤ x := le_trans (by positivity) hle
  have hsmall : d.exponent < 309 :=
    hd.exponent_lt (((le_mul_of_one_le_right hpos hslack).trans_lt hx).trans overflow_lt)
  have hfinite : ((Binary.ofNat .double d.digits).mul .double
      (Binary.ofNat .double (10 ^ n))).isFinite = true := by
    apply Binary.isFinite_mul_ofNat hd.pos (Nat.pow_pos (by decide))
    refine lt_of_le_of_lt ?_ hx
    push_cast
    gcongr
  rw [hn, applyPower, if_pos (by omega), if_pos (by omega), Int.natAbs_natCast, Nat.pow_eq,
    Option.filter_some, if_pos hfinite]
  rfl

/-- Below the last two numbers the shortest digits leave enough room for the roundings. -/
theorem roundings_lt (hb : m < 2 ^ 53) (hq : q ≤ 971) (hm : q = 971 → m < 2 ^ 53 - 2) :
    ((m + 1 / 2) * 2 ^ q : ℚ) * (1 + 1 / 2 ^ 53) ^ 2 < overflow := by
  by_cases hlast : q = 971
  · have hm : m + 3 ≤ 2 ^ 53 := by have := hm hlast; omega
    have hcast : (m : ℚ) + 3 ≤ 2 ^ 53 := by exact_mod_cast hm
    rw [hlast, overflow, mul_right_comm]
    gcongr
    calc (m + 1 / 2 : ℚ) * (1 + 1 / 2 ^ 53) ^ 2
        ≤ (2 ^ 53 - 5 / 2) * (1 + 1 / 2 ^ 53) ^ 2 := by gcongr; linarith
      _ < 2 ^ 53 - 1 / 2 := by norm_num
  · have hcast : (m : ℚ) + 1 ≤ 2 ^ 53 := by exact_mod_cast hb
    have hplace : (2 : ℚ) ^ (971 : Int) = 2 * 2 ^ (970 : Int) := by
      rw [show (971 : Int) = 1 + 970 by rfl, zpow_add₀ (by norm_num), zpow_one]
    calc ((m + 1 / 2) * 2 ^ q : ℚ) * (1 + 1 / 2 ^ 53) ^ 2
        ≤ (2 ^ 53 - 1 / 2) * 2 ^ (970 : Int) * (1 + 1 / 2 ^ 53) ^ 2 := by
          gcongr
          · linarith
          · norm_num
          · omega
      _ = (2 ^ 53 - 1 / 2) * (1 + 1 / 2 ^ 53) ^ 2 * 2 ^ (970 : Int) := by ring
      _ < (2 ^ 53 - 1 / 2) * 2 * 2 ^ (970 : Int) := by gcongr; norm_num
      _ = overflow := by rw [overflow, hplace]; ring

/-- The last two numbers are above the bound of the roundings, yet their digits take their powers. -/
theorem applyPower_last : ∀ m ∈ [2 ^ 53 - 2, 2 ^ 53 - 1],
    (applyPower (Binary.ofNat .double (shortest .double .even m 971).digits) 4
      (shortest .double .even m 971).exponent).isSome := by
  decide +kernel

/-- The shortest digits of a number of sixty-four bits take their power of ten. -/
theorem applyPower_shortest (hm : 0 < m) (hb : m < 2 ^ 53) (hlow : -1074 ≤ q) (hq : q ≤ 971)
    (h : d = shortest .double .even m q) :
    (applyPower (Binary.ofNat .double d.digits) 4 d.exponent).isSome := by
  by_cases he : d.exponent < 0
  · exact applyPower_neg _ 4 he
  by_cases hroom : q = 971 → m < 2 ^ 53 - 2
  · subst h
    exact applyPower_within (within_shortest hm hb hlow .even) (roundings_lt hb hq hroom) (by omega)
  have hlast : q = 971 ∧ (m = 2 ^ 53 - 2 ∨ m = 2 ^ 53 - 1) := by omega
  obtain ⟨rfl, hm⟩ := hlast
  rw [h]
  exact applyPower_last m (by simpa using hm)

end Retrace.Json.Numeral
