import Mathlib.Algebra.Order.Field.Power
import Mathlib.Algebra.Order.Ring.Rat
import Mathlib.Tactic.FieldSimp
import Mathlib.Tactic.Linarith
import Mathlib.Tactic.Positivity
import Mathlib.Tactic.Ring
import Retrace.Number.Shortest

/-! Quotients of natural numbers as rationals: their products with powers, and the greatest power of
two or ten that is not above them. -/
namespace Retrace.Number

variable {num den b la lb : Nat} {e k : Int} {x : ℚ}

/-- The rational that a pair of natural numbers stands for. -/
def quotient (r : Nat × Nat) : ℚ := r.1 / r.2

/-- Multiplying with a power in the numerator or in the denominator. -/
theorem quotient_power (hb : 0 < b) (num den : Nat) (k : Int) :
    quotient (if 0 ≤ k then (num * b ^ k.toNat, den) else (num, den * b ^ (-k).toNat)) =
      quotient (num, den) * (b : ℚ) ^ k := by
  have hbase : (b : ℚ) ≠ 0 := by exact_mod_cast hb.ne'
  unfold quotient
  split
  · rename_i hk
    obtain ⟨n, rfl⟩ := Int.eq_ofNat_of_zero_le hk
    simp only [Int.toNat_natCast, zpow_natCast]
    push_cast
    ring
  · rename_i hk
    obtain ⟨n, rfl⟩ : ∃ n : Nat, k = -(n : Int) := ⟨(-k).toNat, by omega⟩
    simp only [neg_neg, Int.toNat_natCast, zpow_neg, zpow_natCast]
    push_cast
    rw [div_mul_eq_div_div, div_eq_mul_inv]

theorem quotient_shiftRatio (num den : Nat) (k : Int) :
    quotient (shiftRatio num den k) = quotient (num, den) * 2 ^ k :=
  quotient_power (by decide) num den k

theorem quotient_scaleRatio (num den : Nat) (k : Int) :
    quotient (scaleRatio num den k) = quotient (num, den) * 10 ^ k :=
  quotient_power (by decide) num den k

theorem shiftRatio_pos (hd : 0 < den) (num : Nat) (k : Int) : 0 < (shiftRatio num den k).2 := by
  have hpow : ∀ n, 0 < Nat.pow 2 n := fun n => Nat.pow_pos (by decide)
  unfold shiftRatio
  split
  · exact hd
  · exact Nat.mul_pos hd (hpow _)

theorem scaleRatio_pos (hd : 0 < den) (num : Nat) (k : Int) : 0 < (scaleRatio num den k).2 := by
  have hpow : ∀ n, 0 < Nat.pow 10 n := fun n => Nat.pow_pos (by decide)
  unfold scaleRatio
  split
  · exact hd
  · exact Nat.mul_pos hd (hpow _)

/-! ### Logarithms -/

/-- A quotient lies between the powers that the lengths of its parts tell. -/
theorem quotient_bracket (hb : 0 < b) (hd : 0 < den) (hn₁ : b ^ la ≤ num)
    (hn₂ : num < b ^ (la + 1)) (hd₁ : b ^ lb ≤ den) (hd₂ : den < b ^ (lb + 1)) :
    (b : ℚ) ^ ((la : Int) - lb - 1) ≤ quotient (num, den) ∧
      quotient (num, den) < (b : ℚ) ^ ((la : Int) - lb + 1) := by
  have hbase : (0 : ℚ) < b := by exact_mod_cast hb
  have hden : (0 : ℚ) < den := by exact_mod_cast hd
  have hlow : (b : ℚ) ^ ((la : Int) - lb - 1) = (b : ℚ) ^ la / (b : ℚ) ^ (lb + 1) := by
    rw [show (la : Int) - lb - 1 = (la : Int) - ((lb + 1 : Nat) : Int) by push_cast; ring,
      zpow_sub₀ hbase.ne', zpow_natCast, zpow_natCast]
  have hhigh : (b : ℚ) ^ ((la : Int) - lb + 1) = (b : ℚ) ^ (la + 1) / (b : ℚ) ^ lb := by
    rw [show (la : Int) - lb + 1 = ((la + 1 : Nat) : Int) - (lb : Int) by push_cast; ring,
      zpow_sub₀ hbase.ne', zpow_natCast, zpow_natCast]
  rw [hlow, hhigh, quotient]
  constructor
  · rw [div_le_div_iff₀ (by positivity) hden]
    exact_mod_cast Nat.mul_le_mul hn₁ hd₂.le
  · rw [div_lt_div_iff₀ hden (by positivity)]
    exact_mod_cast (Nat.mul_le_mul_left num hd₁).trans_lt
      (Nat.mul_lt_mul_of_pos_right hn₂ hd)

/-- Of two candidates for a logarithm, the one that a comparison with a power tells. -/
theorem log_bracket (hlow : (b : ℚ) ^ (e - 1) ≤ x) (hhigh : x < (b : ℚ) ^ (e + 1))
    {p : Prop} [Decidable p] (hp : p ↔ (b : ℚ) ^ e ≤ x) :
    (b : ℚ) ^ (if p then e else e - 1) ≤ x ∧
      x < (b : ℚ) ^ ((if p then e else e - 1) + 1) := by
  split
  · rename_i h
    exact ⟨hp.mp h, hhigh⟩
  · rename_i h
    rw [sub_add_cancel]
    exact ⟨hlow, not_le.mp fun hle => h (hp.mpr hle)⟩

/-- The numerator is not below the denominator just if a power is not above the quotient. -/
theorem le_iff_power_le (hb : 0 < b) {r : Nat × Nat} (hr : 0 < r.2)
    (h : quotient r = x * (b : ℚ) ^ (-e)) : r.2 ≤ r.1 ↔ (b : ℚ) ^ e ≤ x := by
  have hbase : (0 : ℚ) < b := by exact_mod_cast hb
  have hden : (0 : ℚ) < r.2 := by exact_mod_cast hr
  have hone : r.2 ≤ r.1 ↔ 1 ≤ quotient r := by
    rw [quotient, one_le_div hden]
    exact_mod_cast Iff.rfl
  rw [hone, h, zpow_neg, ← div_eq_mul_inv, one_le_div (zpow_pos hbase e)]

theorem log2Ratio_bracket (hn : 0 < num) (hd : 0 < den) :
    (2 : ℚ) ^ log2Ratio num den ≤ quotient (num, den) ∧
      quotient (num, den) < 2 ^ (log2Ratio num den + 1) := by
  obtain ⟨hlow, hhigh⟩ := quotient_bracket (b := 2) (by decide) hd (Nat.log2_self_le hn.ne')
    Nat.lt_log2_self (Nat.log2_self_le hd.ne') Nat.lt_log2_self
  have hp := le_iff_power_le (b := 2) (by decide) (shiftRatio_pos hd num _)
    (quotient_shiftRatio num den (-((num.log2 : Int) - den.log2)))
  exact log_bracket hlow hhigh hp

theorem digitCountFrom_bracket {fuel n : Nat} (hn : 0 < n) (hf : n < 2 ^ fuel) :
    ∃ k, digitCountFrom fuel n = k + 1 ∧ 10 ^ k ≤ n ∧ n < 10 ^ (k + 1) := by
  induction fuel generalizing n with
  | zero => omega
  | succ fuel ih =>
    rw [digitCountFrom, if_neg hn.ne']
    rcases Nat.eq_zero_or_pos (n / 10) with hz | hpos
    · have hcount : digitCountFrom fuel (n / 10) = 0 := by
        rw [hz]
        cases fuel <;> rfl
      exact ⟨0, by rw [hcount], by omega, by omega⟩
    · obtain ⟨k, hk, hlow, hhigh⟩ := ih hpos (by rw [Nat.pow_succ] at hf; omega)
      refine ⟨k + 1, by omega, ?_, ?_⟩
      · rw [Nat.pow_succ]
        omega
      · rw [Nat.pow_succ]
        omega

theorem digitCount_bracket {n : Nat} (hn : 0 < n) :
    ∃ k, digitCount n = k + 1 ∧ 10 ^ k ≤ n ∧ n < 10 ^ (k + 1) :=
  digitCountFrom_bracket hn Nat.lt_log2_self

theorem log10Ratio_bracket (hn : 0 < num) (hd : 0 < den) :
    (10 : ℚ) ^ log10Ratio num den ≤ quotient (num, den) ∧
      quotient (num, den) < 10 ^ (log10Ratio num den + 1) := by
  obtain ⟨la, hla, hn₁, hn₂⟩ := digitCount_bracket hn
  obtain ⟨lb, hlb, hd₁, hd₂⟩ := digitCount_bracket hd
  obtain ⟨hlow, hhigh⟩ := quotient_bracket (b := 10) (by decide) hd hn₁ hn₂ hd₁ hd₂
  have he : (digitCount num : Int) - digitCount den = la - lb := by omega
  have hp := le_iff_power_le (b := 10) (by decide) (scaleRatio_pos hd num _)
    (quotient_scaleRatio num den (-((la : Int) - lb)))
  unfold log10Ratio
  rw [he]
  exact log_bracket hlow hhigh hp

end Retrace.Number
