import Mathlib.Tactic.NormNum
import Retrace.Number.Read
import Retrace.Proofs.Number.Quotients

/-! Rounding to sixty-four bits: how far a rounded number is above what it stands for, and up to
where it is finite. -/
namespace Retrace.Number

variable {num den m n : Nat} {l q r : Int} {s t : Bool} {x : ℚ} {y : Binary}

/-- The least magnitude that is rounded to infinity. -/
def overflow : ℚ := (2 ^ 53 - 1 / 2) * 2 ^ (971 : Int)

theorem overflow_lt : overflow < 2 ^ (1024 : Int) := by
  have hpow : (2 : ℚ) ^ (1024 : Int) = 2 ^ 53 * 2 ^ (971 : Int) := by
    rw [show (1024 : Int) = ((53 : Nat) : Int) + 971 by rfl, zpow_add₀ (by norm_num), zpow_natCast]
  rw [hpow, overflow]
  gcongr
  norm_num

theorem power_cancel (q : Int) : (2 : ℚ) ^ (-q) * 2 ^ q = 1 := by
  rw [← zpow_add₀ (by norm_num), neg_add_cancel, zpow_zero]

/-! ### One rounding -/

theorem roundDiv_le (hd : 0 < den) : (roundDiv num den : ℚ) ≤ quotient (num, den) + 1 / 2 := by
  have hden : (0 : ℚ) < den := by exact_mod_cast hd
  have hdiv := Nat.div_add_mod num den
  have hodd : num / den % 2 ≤ 1 := by omega
  have hround : 2 * (den * roundDiv num den) ≤ 2 * num + den := by
    unfold roundDiv
    dsimp only
    split
    · omega
    · split
      · rw [Nat.mul_add]
        omega
      · have hle : den * (num / den % 2) ≤ den * 1 := Nat.mul_le_mul_left den hodd
        rw [Nat.mul_add]
        omega
  have hcast : (2 : ℚ) * (den * roundDiv num den) ≤ 2 * num + den := by exact_mod_cast hround
  rw [quotient, div_add' _ _ _ hden.ne', le_div_iff₀ hden]
  linarith

/-- A number in units of its last place has fifty-three bits, or one more after rounding. -/
theorem rounded_bits (hm : (m : ℚ) ≤ x * 2 ^ (-q) + 1 / 2) (hx : x < 2 ^ (l + 1))
    (hq : l - 52 ≤ q) : m ≤ 2 ^ 53 := by
  have hscaled : x * 2 ^ (-q) < 2 ^ 53 := by
    calc x * 2 ^ (-q) < 2 ^ (l + 1) * 2 ^ (-q) := by gcongr
      _ = 2 ^ (l + 1 - q) := by rw [← zpow_add₀ (by norm_num), ← sub_eq_add_neg]
      _ ≤ 2 ^ ((53 : Nat) : Int) := zpow_le_zpow_right₀ (by norm_num) (by omega)
      _ = 2 ^ 53 := zpow_natCast 2 53
  have hlt : (m : ℚ) < ((2 ^ 53 + 1 : Nat) : ℚ) := by
    push_cast
    linarith
  have hlt : m < 2 ^ 53 + 1 := by exact_mod_cast hlt
  omega

/-- Rounding to fifty-three bits adds at most half of the last place. -/
theorem rounded_le (hm : (m : ℚ) ≤ x * 2 ^ (-q) + 1 / 2) (hx : 2 ^ l ≤ x) (hq : q = l - 52) :
    (m : ℚ) * 2 ^ q ≤ x * (1 + 1 / 2 ^ 53) := by
  have hplace : (2 : ℚ) ^ q ≤ x / 2 ^ 52 := by
    rw [hq, show (52 : Int) = ((52 : Nat) : Int) by rfl, zpow_sub₀ (by norm_num), zpow_natCast]
    gcongr
  calc (m : ℚ) * 2 ^ q ≤ (x * 2 ^ (-q) + 1 / 2) * 2 ^ q := by gcongr
    _ = x * (2 ^ (-q) * 2 ^ q) + 2 ^ q / 2 := by ring
    _ = x + 2 ^ q / 2 := by rw [power_cancel, mul_one]
    _ ≤ x + x / 2 ^ 52 / 2 := by gcongr
    _ = x * (1 + 1 / 2 ^ 53) := by ring

/-- Below the overflow no rounding in the last binade carries. -/
theorem rounded_last (hm : (m : ℚ) ≤ x * 2 ^ (-(971 : Int)) + 1 / 2) (hx : x < overflow) :
    m < 2 ^ 53 := by
  have hlt : (m : ℚ) < 2 ^ 53 := by
    calc (m : ℚ) ≤ x * 2 ^ (-(971 : Int)) + 1 / 2 := hm
      _ < overflow * 2 ^ (-(971 : Int)) + 1 / 2 := by gcongr
      _ = (2 ^ 53 - 1 / 2) * (2 ^ (-(971 : Int)) * 2 ^ (971 : Int)) + 1 / 2 := by
        rw [overflow]
        ring
      _ = 2 ^ 53 := by rw [power_cancel]; ring
  exact_mod_cast hlt

/-- A carry moves the place of a number. -/
def carry (m : Nat) (q : Int) : Nat × Int := if m = 2 ^ 53 then (2 ^ 52, q + 1) else (m, q)

/-- A quotient is rounded at the place that its logarithm tells. -/
theorem ofRatio_eq (hn : 0 < num) (hd : 0 < den) (s : Bool) :
    ∃ (m : Nat) (q : Int), (m : ℚ) ≤ quotient (num, den) * 2 ^ (-q) + 1 / 2 ∧
      q = max (log2Ratio num den - 52) (-1074) ∧
      Binary.ofRatio .double s num den =
        if 971 < (carry m q).2 then .infinite s else .finite s (carry m q).1 (carry m q).2 := by
  obtain ⟨q, hq⟩ : ∃ q : Int, q = max (log2Ratio num den - 52) (-1074) := ⟨_, rfl⟩
  obtain ⟨r, hr⟩ : ∃ r, r = shiftRatio num den (-q) := ⟨_, rfl⟩
  have hpos : 0 < r.2 := hr ▸ shiftRatio_pos hd num (-q)
  have hvalue : quotient r = quotient (num, den) * 2 ^ (-q) := by rw [hr, quotient_shiftRatio]
  refine ⟨roundDiv r.1 r.2, q, hvalue ▸ roundDiv_le hpos, hq, ?_⟩
  have hbits : ((53 : Nat) : Int) - 1 = 52 := rfl
  unfold Binary.ofRatio carry
  simp only [if_neg hn.ne', Precision.double, hbits, ← hq, ← hr, Nat.pow_eq]
  by_cases hm : roundDiv r.1 r.2 = 2 ^ 53
  · simp only [hm]
    rfl
  · simp only [if_neg hm]

theorem carry_lt (hm : m ≤ 2 ^ 53) : (carry m q).1 < 2 ^ 53 := by
  unfold carry
  split
  · norm_num
  · show m < 2 ^ 53
    omega

/-- A carry does not change the number. -/
theorem carry_eq (m : Nat) (q : Int) : ((carry m q).1 : ℚ) * 2 ^ (carry m q).2 = m * 2 ^ q := by
  unfold carry
  split
  · rename_i hm
    rw [hm, zpow_add₀ (by norm_num), zpow_one]
    push_cast
    ring
  · rfl

theorem le_carry (m : Nat) (q : Int) : q ≤ (carry m q).2 := by
  unfold carry
  split
  · show q ≤ q + 1
    omega
  · exact le_rfl

/-- What a quotient is rounded to: it has fifty-three bits, is finite below the overflow, and exceeds a
quotient that is not below one by at most one part in `2 ^ 53`. -/
theorem ofRatio_spec (hn : 0 < num) (hd : 0 < den) (s : Bool) :
    ∃ m q, Binary.ofRatio .double s num den =
        (if 971 < q then .infinite s else .finite s m q) ∧ m < 2 ^ 53 ∧ -1074 ≤ q ∧
      (quotient (num, den) < overflow → q ≤ 971) ∧
      (1 ≤ quotient (num, den) → (m : ℚ) * 2 ^ q ≤ quotient (num, den) * (1 + 1 / 2 ^ 53)) := by
  obtain ⟨hlow, hhigh⟩ := log2Ratio_bracket hn hd
  obtain ⟨m, q, hm, hq, heq⟩ := ofRatio_eq hn hd s
  have hbits : m ≤ 2 ^ 53 := rounded_bits hm hhigh (by omega)
  have hlowest : -1074 ≤ q := by omega
  refine ⟨_, _, heq, carry_lt hbits, hlowest.trans (le_carry m q), fun hx => ?_, fun hx => ?_⟩
  · have hl : log2Ratio num den < 1024 :=
      (zpow_lt_zpow_iff_right₀ (show (1 : ℚ) < 2 by norm_num)).mp
        (hlow.trans_lt (hx.trans overflow_lt))
    by_cases hlast : q = 971
    · have hlt : m < 2 ^ 53 := rounded_last (hlast ▸ hm) hx
      rw [carry, if_neg hlt.ne]
      exact hlast.le
    · unfold carry
      split
      · show q + 1 ≤ 971
        omega
      · show q ≤ 971
        omega
  · have hl : 0 < log2Ratio num den + 1 := by
      refine (zpow_lt_zpow_iff_right₀ (show (1 : ℚ) < 2 by norm_num)).mp ?_
      rw [zpow_zero]
      exact hx.trans_lt hhigh
    rw [carry_eq]
    exact rounded_le hm hlow (by omega)

/-! ### Numbers of sixty-four bits -/

namespace Binary

/-- A number of sixty-four bits: when it is finite it has fifty-three bits between the last places that
there are. -/
def Wide : Binary → Prop
  | finite _ m q => m < 2 ^ 53 ∧ -1074 ≤ q ∧ q ≤ 971
  | _ => True

theorem wide_ofRatio (hd : 0 < den) (s : Bool) (num : Nat) : (ofRatio .double s num den).Wide := by
  rcases Nat.eq_zero_or_pos num with rfl | hn
  · exact ⟨by norm_num, by decide, by decide⟩
  · obtain ⟨m, q, heq, hbits, hlowest, -⟩ := ofRatio_spec hn hd s
    rw [heq]
    split
    · trivial
    · exact ⟨hbits, hlowest, by omega⟩

theorem Wide.negate {x : Binary} (h : x.Wide) : x.negate.Wide := by
  cases x <;> exact h

theorem wide_round (x : Binary) : (x.round .double).Wide := by
  cases x with
  | nan => trivial
  | infinite s => trivial
  | finite s m q => exact wide_ofRatio (shiftRatio_pos Nat.one_pos m q) s _

theorem isFinite_ofRatio (hd : 0 < den) (hx : quotient (num, den) < overflow) (s : Bool) :
    (ofRatio .double s num den).isFinite = true := by
  rcases Nat.eq_zero_or_pos num with rfl | hn
  · rfl
  · obtain ⟨m, q, heq, -, -, hplace, -⟩ := ofRatio_spec hn hd s
    rw [heq, if_neg (not_lt.mpr (hplace hx))]
    rfl

/-- A natural number below the overflow is rounded to a finite number that is hardly above it. -/
theorem exists_ofNat (hn : 0 < n) (hx : (n : ℚ) < overflow) :
    ∃ m q, ofNat .double n = .finite false m q ∧ (m : ℚ) * 2 ^ q ≤ n * (1 + 1 / 2 ^ 53) := by
  have hvalue : quotient (n, 1) = n := by simp [quotient]
  have hone : (1 : ℚ) ≤ n := by exact_mod_cast hn
  obtain ⟨m, q, heq, -, -, hplace, hbound⟩ := ofRatio_spec hn Nat.one_pos false
  rw [hvalue] at hplace hbound
  refine ⟨m, q, ?_, hbound hone⟩
  rw [ofNat, heq, if_neg (not_lt.mpr (hplace hx))]

theorem isFinite_mul (hx : (m : ℚ) * 2 ^ q * (n * 2 ^ r) < overflow) :
    ((finite s m q).mul .double (finite t n r)).isFinite = true := by
  have hvalue : quotient (ratio (m * n) (q + r)) = (m : ℚ) * 2 ^ q * (n * 2 ^ r) := by
    rw [ratio, quotient_shiftRatio, zpow_add₀ (by norm_num), quotient]
    push_cast
    ring
  exact isFinite_ofRatio (shiftRatio_pos Nat.one_pos _ _) (hvalue.trans_lt hx) _

/-- The product of two natural numbers is finite when it is below the overflow by the three roundings
that it takes. -/
theorem isFinite_mul_ofNat (hm : 0 < m) (hn : 0 < n)
    (h : (m : ℚ) * n * (1 + 1 / 2 ^ 53) ^ 2 < overflow) :
    ((ofNat .double m).mul .double (ofNat .double n)).isFinite = true := by
  have hone : (1 : ℚ) ≤ m ∧ (1 : ℚ) ≤ n := ⟨by exact_mod_cast hm, by exact_mod_cast hn⟩
  have hslack : (1 : ℚ) ≤ (1 + 1 / 2 ^ 53) ^ 2 := by norm_num
  have hproduct : (m : ℚ) * n < overflow := by
    refine lt_of_le_of_lt ?_ h
    exact le_mul_of_one_le_right (by positivity) hslack
  obtain ⟨a, q, ha, hale⟩ := exists_ofNat hm
    (lt_of_le_of_lt (le_mul_of_one_le_right (by positivity) hone.2) hproduct)
  obtain ⟨b, r, hb, hble⟩ := exists_ofNat hn
    (lt_of_le_of_lt (le_mul_of_one_le_left (by positivity) hone.1) hproduct)
  rw [ha, hb]
  apply isFinite_mul
  calc (a : ℚ) * 2 ^ q * (b * 2 ^ r)
      ≤ m * (1 + 1 / 2 ^ 53) * (n * (1 + 1 / 2 ^ 53)) := by gcongr
    _ = (m : ℚ) * n * (1 + 1 / 2 ^ 53) ^ 2 := by ring
    _ < overflow := h

end Binary

/-! ### Numbers that are read -/

theorem wide_ofDecimal (negative : Bool) (digits : Nat) (e : Int) :
    (ofDecimal .double negative digits e).Wide := by
  unfold ofDecimal
  dsimp only
  split
  · exact ⟨by decide, by decide, by decide⟩
  · split
    · trivial
    · split
      · exact Binary.wide_ofRatio Nat.one_pos negative _
      · exact Binary.wide_ofRatio (Nat.pow_pos (by decide)) negative digits

theorem wide_readMagnitude? {negative : Bool} {s : List Char}
    (h : readMagnitude? .double negative s = some y) : y.Wide := by
  have hfinish : ∀ (o : Option Int) (n k : Nat),
      (o.bind fun e => some (ofDecimal .double negative n (e - k))) = some y → y.Wide := by
    intro o n k ho
    obtain ⟨e, -, he⟩ := Option.bind_eq_some_iff.mp ho
    rw [← Option.some.inj he]
    exact wide_ofDecimal _ _ _
  simp only [readMagnitude?] at h
  -- The branches differ in the digits and in the exponent only.
  repeat' split at h
  all_goals first
    | exact hfinish _ _ _ h
    | cases h

theorem wide_readBinary? {s : List Char} (h : readBinary? .double s = some y) : y.Wide := by
  have hunsigned : ∀ (negative : Bool) (r : List Char) (word : String),
      (if word = "inf" ∨ word = "infinity" then some (.infinite negative)
        else if word = "nan" then some .nan else readMagnitude? .double negative r) = some y →
      y.Wide := by
    intro negative r word h
    split at h
    · rw [← Option.some.inj h]
      trivial
    · split at h
      · rw [← Option.some.inj h]
        trivial
      · exact wide_readMagnitude? h
  unfold readBinary? at h
  split at h
  exact hunsigned _ _ _ h

end Retrace.Number
