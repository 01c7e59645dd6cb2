import Retrace.Proofs.Number.Rounding

/-! The shortest digits of a number of sixty-four bits: they do not start with a zero, there are at
most seventeen of them unless they are a power of ten, and they do not exceed the number by more than
half of its last place. -/
namespace Retrace.Number

variable {tie : Tie} {m n d fuel : Nat} {q u e : Int}

/-! ### One grid -/

section

variable {c below above upper : Prop} [Decidable c] [Decidable below] [Decidable above]
  [Decidable upper] {a b d d' : Nat}

theorem le_of_bound (h : if c then a ≤ b else a < b) : a ≤ b := by
  split at h
  · exact h
  · exact h.le

theorem le_of_not_bound (h : ¬ if c then a ≤ b else a < b) : b ≤ a := by
  split at h
  · omega
  · exact not_lt.mp h

/-- The greater of two neighbours is taken only when it may be. -/
theorem eq_of_taken (h : (if below ∧ above then some (if upper then d + 1 else d)
    else if below then some d else if above then some (d + 1) else none) = some d') :
    d' = d ∨ d' = d + 1 ∧ above := by
  by_cases hb : below
  · by_cases ha : above
    · rw [if_pos ⟨hb, ha⟩, Option.some.injEq] at h
      split at h
      · exact Or.inr ⟨h.symm, ha⟩
      · exact Or.inl h.symm
    · rw [if_neg fun hba => ha hba.2, if_pos hb, Option.some.injEq] at h
      exact Or.inl h.symm
  · rw [if_neg fun hba => hb hba.1, if_neg hb] at h
    split at h
    · rename_i ha
      rw [Option.some.injEq] at h
      exact Or.inr ⟨h.symm, ha⟩
    · cases h

theorem not_of_none (h : (if below ∧ above then some (if upper then d + 1 else d)
    else if below then some d else if above then some (d + 1) else none) = none) :
    ¬ below ∧ ¬ above := by
  by_cases hb : below
  · by_cases ha : above
    · rw [if_pos ⟨hb, ha⟩] at h
      cases h
    · rw [if_neg fun hba => ha hba.2, if_pos hb] at h
      cases h
  · refine ⟨hb, fun ha => ?_⟩
    rw [if_neg fun hba => hb hba.1, if_neg hb, if_pos ha] at h
    cases h

end

/-- The lower end of the interval of a number, in quarters of its last place. -/
def lowerEnd (m : Nat) (q : Int) : Nat := (quarters .double m q).1

/-- The neighbours that are tried lie around the number, and the greater one only if it does not exceed
the interval. Without either of them the interval is no wider than the grid. -/
theorem onGrid_bounds (tie : Tie) (m : Nat) (q u : Int) :
    ∃ r : Nat × Nat, 0 < r.2 ∧ (r.1 : ℚ) * 10 ^ u = r.2 * 2 ^ (q - 2) ∧
      (∀ d, onGrid .double tie m q u = some d →
        4 * m * r.1 / r.2 ≤ d ∧ d ≤ 4 * m * r.1 / r.2 + 1 ∧ d * r.2 ≤ (4 * m + 2) * r.1) ∧
      (onGrid .double tie m q u = none → (4 * m + 2) * r.1 ≤ lowerEnd m q * r.1 + r.2) := by
  obtain ⟨a, ha⟩ : ∃ a, a = shiftRatio 1 1 (q - 2) := ⟨_, rfl⟩
  obtain ⟨r, hr⟩ : ∃ r, r = scaleRatio a.1 a.2 (-u) := ⟨_, rfl⟩
  have hapos : 0 < a.2 := ha ▸ shiftRatio_pos Nat.one_pos 1 (q - 2)
  have hpos : 0 < r.2 := hr ▸ scaleRatio_pos hapos a.1 (-u)
  have hvalue : (r.1 : ℚ) * 10 ^ u = r.2 * 2 ^ (q - 2) := by
    have hden : (r.2 : ℚ) ≠ 0 := by exact_mod_cast hpos.ne'
    have hone : quotient (1, 1) = 1 := by simp [quotient]
    have hquotient : quotient r = 2 ^ (q - 2) * 10 ^ (-u) := by
      rw [hr, quotient_scaleRatio, ha, Prod.mk.eta, quotient_shiftRatio, hone, one_mul]
    rw [quotient, div_eq_iff hden] at hquotient
    rw [hquotient, zpow_neg]
    field_simp
  have hends : quarters .double m q = (lowerEnd m q, 4 * m, 4 * m + 2) := rfl
  refine ⟨r, hpos, hvalue, fun d hd => ?_, fun hnone => ?_⟩
  · unfold onGrid at hd
    simp only [hends, ← ha, ← hr] at hd
    rcases eq_of_taken hd with rfl | ⟨rfl, habove⟩
    · have hbelow : 4 * m * r.1 / r.2 * r.2 ≤ 4 * m * r.1 := Nat.div_mul_le_self _ _
      have hmid : 4 * m * r.1 ≤ (4 * m + 2) * r.1 := Nat.mul_le_mul_right _ (by omega)
      exact ⟨le_rfl, Nat.le_succ _, hbelow.trans hmid⟩
    · exact ⟨Nat.le_succ _, le_rfl, le_of_bound habove⟩
  · unfold onGrid at hnone
    simp only [hends, ← ha, ← hr] at hnone
    obtain ⟨hlow, hhigh⟩ := not_of_none hnone
    have hlow := le_of_not_bound hlow
    have hhigh := le_of_not_bound hhigh
    have hnext : (4 * m * r.1 / r.2 + 1) * r.2 = 4 * m * r.1 / r.2 * r.2 + r.2 := Nat.succ_mul _ _
    omega

theorem quarter (x : ℚ) (q : Int) : 4 * x * 2 ^ (q - 2) = x * 2 ^ q := by
  rw [zpow_sub₀ (by norm_num), show (2 : ℚ) ^ (2 : Int) = 4 by norm_num]
  ring

/-- A neighbour that is taken is close to the number and not zero. -/
theorem onGrid_some (h : onGrid .double tie m q u = some d) :
    (d : ℚ) * 10 ^ u ≤ (m + 1 / 2) * 2 ^ q ∧ (d : ℚ) * 10 ^ u ≤ m * 2 ^ q + 10 ^ u ∧
      ((10 : ℚ) ^ u ≤ m * 2 ^ q → 0 < d) := by
  obtain ⟨r, hpos, hvalue, hsome, -⟩ := onGrid_bounds tie m q u
  obtain ⟨hlow, hnear, hhigh⟩ := hsome d h
  have hden : (0 : ℚ) < r.2 := by exact_mod_cast hpos
  refine ⟨?_, ?_, fun hu => ?_⟩
  · have hcast : (d : ℚ) * r.2 ≤ (4 * m + 2) * r.1 := by exact_mod_cast hhigh
    refine le_of_mul_le_mul_left ?_ hden
    calc (r.2 : ℚ) * (d * 10 ^ u) = d * r.2 * 10 ^ u := by ring
      _ ≤ (4 * m + 2) * r.1 * 10 ^ u := by gcongr
      _ = (4 * m + 2) * (r.2 * 2 ^ (q - 2)) := by rw [mul_assoc, hvalue]
      _ = r.2 * (4 * (m + 1 / 2) * 2 ^ (q - 2)) := by ring
      _ = r.2 * ((m + 1 / 2) * 2 ^ q) := by rw [quarter]
  · have hdiv : 4 * m * r.1 / r.2 * r.2 ≤ 4 * m * r.1 := Nat.div_mul_le_self _ _
    have hmul : d * r.2 ≤ 4 * m * r.1 + r.2 := by
      calc d * r.2 ≤ (4 * m * r.1 / r.2 + 1) * r.2 := Nat.mul_le_mul_right _ hnear
        _ = 4 * m * r.1 / r.2 * r.2 + r.2 := Nat.succ_mul _ _
        _ ≤ 4 * m * r.1 + r.2 := Nat.add_le_add_right hdiv _
    have hcast : (d : ℚ) * r.2 ≤ 4 * m * r.1 + r.2 := by exact_mod_cast hmul
    refine le_of_mul_le_mul_left ?_ hden
    calc (r.2 : ℚ) * (d * 10 ^ u) = d * r.2 * 10 ^ u := by ring
      _ ≤ (4 * m * r.1 + r.2) * 10 ^ u := by gcongr
      _ = 4 * m * (r.1 * 10 ^ u) + r.2 * 10 ^ u := by ring
      _ = r.2 * (4 * m * 2 ^ (q - 2) + 10 ^ u) := by rw [hvalue]; ring
      _ = r.2 * (m * 2 ^ q + 10 ^ u) := by rw [quarter]
  · have hle : (r.2 : ℚ) * 10 ^ u ≤ 4 * m * r.1 * 10 ^ u := by
      calc (r.2 : ℚ) * 10 ^ u ≤ r.2 * (m * 2 ^ q) := by gcongr
        _ = r.2 * (4 * m * 2 ^ (q - 2)) := by rw [quarter]
        _ = 4 * m * (r.1 * 10 ^ u) := by rw [hvalue]; ring
        _ = 4 * m * r.1 * 10 ^ u := by ring
    have hle : (r.2 : ℚ) ≤ 4 * m * r.1 := le_of_mul_le_mul_right hle (by positivity)
    have hone : 1 ≤ 4 * m * r.1 / r.2 := (Nat.one_le_div_iff hpos).mpr (by exact_mod_cast hle)
    omega

/-- Where no neighbour is taken, the grid is as coarse as the interval is wide. -/
theorem onGrid_none (h : onGrid .double tie m q u = none) :
    (4 * m + 2 - lowerEnd m q : ℚ) * 2 ^ (q - 2) ≤ 10 ^ u := by
  obtain ⟨r, hpos, hvalue, -, hnone⟩ := onGrid_bounds tie m q u
  have hden : (0 : ℚ) < r.2 := by exact_mod_cast hpos
  have hcast : (4 * m + 2 : ℚ) * r.1 ≤ lowerEnd m q * r.1 + r.2 := by exact_mod_cast hnone h
  refine le_of_mul_le_mul_left ?_ hden
  calc (r.2 : ℚ) * ((4 * m + 2 - lowerEnd m q) * 2 ^ (q - 2))
      = (4 * m + 2 - lowerEnd m q) * (r.2 * 2 ^ (q - 2)) := by ring
    _ = ((4 * m + 2) * r.1 - lowerEnd m q * r.1) * 10 ^ u := by rw [← hvalue]; ring
    _ ≤ r.2 * 10 ^ u := by gcongr; linarith

/-! ### All grids -/

/-- The interval of a number of fifty-three bits is wider than the part of the number that seventeen
digits leave over. -/
theorem lowerEnd_lt (hm : 0 < m) (hb : m < 2 ^ 53) (q : Int) :
    lowerEnd m q * 10 ^ 16 + 4 * m < (4 * m + 2) * 10 ^ 16 := by
  unfold lowerEnd quarters
  dsimp only
  split
  · rename_i hnarrow
    have hedge : m = 2 ^ 52 := hnarrow.1
    omega
  · omega

/-- On the grid of seventeen digits a neighbour is always taken. -/
theorem onGrid_seventeen (hm : 0 < m) (hb : m < 2 ^ 53) (he : (10 : ℚ) ^ e ≤ m * 2 ^ q) :
    onGrid .double tie m q (e - 16) ≠ none := by
  intro hnone
  have hcoarse := onGrid_none hnone
  have hwide : (lowerEnd m q : ℚ) * 10 ^ 16 + 4 * m < (4 * m + 2) * 10 ^ 16 := by
    exact_mod_cast lowerEnd_lt hm hb q
  have hunit : (10 : ℚ) ^ e = 10 ^ (e - 16) * 10 ^ 16 := by
    rw [← zpow_natCast, ← zpow_add₀ (by norm_num)]
    congr 1
    norm_num
  have hplace : (0 : ℚ) < 2 ^ (q - 2) := by positivity
  have hle : (4 * m + 2 - lowerEnd m q : ℚ) * 10 ^ 16 * 2 ^ (q - 2) ≤ 4 * m * 2 ^ (q - 2) := by
    calc (4 * m + 2 - lowerEnd m q : ℚ) * 10 ^ 16 * 2 ^ (q - 2)
        = (4 * m + 2 - lowerEnd m q) * 2 ^ (q - 2) * 10 ^ 16 := by ring
      _ ≤ 10 ^ (e - 16) * 10 ^ 16 := by gcongr
      _ = 10 ^ e := hunit.symm
      _ ≤ m * 2 ^ q := he
      _ = 4 * m * 2 ^ (q - 2) := (quarter _ _).symm
  have hle := le_of_mul_le_mul_right hle hplace
  linarith

/-- The digits that are found are those of a neighbour on a grid of seventeen digits at most. -/
theorem shortestFrom_eq (tie : Tie) (hm : 0 < m) (hb : m < 2 ^ 53) (he : (10 : ℚ) ^ e ≤ m * 2 ^ q)
    (hn : n ≤ 17) (hf : 17 < n + fuel) :
    ∃ k ≤ 17, n ≤ k ∧ ∃ d, shortestFrom .double tie m q e fuel n = ⟨d, e - k + 1⟩ ∧
      onGrid .double tie m q (e - k + 1) = some d := by
  induction fuel generalizing n with
  | zero => omega
  | succ fuel ih =>
    rw [shortestFrom]
    cases hgrid : onGrid .double tie m q (e - n + 1) with
    | some d => exact ⟨n, hn, le_rfl, d, rfl, hgrid⟩
    | none =>
      dsimp only
      have hne : n ≠ 17 := by
        rintro rfl
        exact onGrid_seventeen hm hb he (by rwa [show e - (17 : Nat) + 1 = e - 16 by omega] at hgrid)
      obtain ⟨k, hk, hnk, hfound⟩ := ih (n := n + 1) (by omega) (by omega)
      exact ⟨k, hk, by omega, hfound⟩

/-! ### Decimal numbers -/

namespace Decimal

/-- A decimal number that can be written for one of sixty-four bits: it is not zero, has seventeen
digits or is the power of ten after them, is not tiny, and does not exceed a bound. -/
structure Within (x : ℚ) (d : Decimal) : Prop where
  pos : 0 < d.digits
  short : d.digits ≤ 10 ^ 17
  low : -400 ≤ d.exponent
  le : (d.digits : ℚ) * 10 ^ d.exponent ≤ x

variable {x : ℚ} {d : Decimal}

/-- Zeros at the end of the digits are taken off without a change of the number. -/
theorem Within.strip (fuel : Nat) (h : d.Within x) : (d.strip fuel).Within x := by
  induction fuel generalizing d with
  | zero => exact h
  | succ fuel ih =>
    rw [Decimal.strip]
    split
    · rename_i hzero
      apply ih
      have hpos := h.pos
      have hshort := h.short
      have hlow := h.low
      have hdigits : d.digits = d.digits / 10 * 10 := by omega
      have hcast : (d.digits : ℚ) = ((d.digits / 10 : Nat) : ℚ) * 10 := by exact_mod_cast hdigits
      refine ⟨?_, ?_, ?_, ?_⟩
      · show 0 < d.digits / 10
        omega
      · show d.digits / 10 ≤ 10 ^ 17
        omega
      · show -400 ≤ d.exponent + 1
        omega
      · calc ((d.digits / 10 : Nat) : ℚ) * 10 ^ (d.exponent + 1)
            = ((d.digits / 10 : Nat) : ℚ) * 10 * 10 ^ d.exponent := by
              rw [zpow_add₀ (by norm_num), zpow_one]
              ring
          _ = d.digits * 10 ^ d.exponent := by rw [hcast]
          _ ≤ x := h.le
    · exact h

theorem two_pow_lt : (2 : ℚ) ^ (1024 : Int) < 10 ^ (309 : Int) := by
  have hpow : (2 : ℚ) ^ 1024 < 10 ^ 309 := by
    calc (2 : ℚ) ^ 1024 = (2 ^ 93) ^ 11 * 2 := by rw [← pow_mul, ← pow_succ]
      _ ≤ (10 ^ 28) ^ 11 * 2 := by gcongr; norm_num
      _ < (10 ^ 28) ^ 11 * 10 := by gcongr; norm_num
      _ = 10 ^ 309 := by rw [← pow_mul, ← pow_succ]
  exact_mod_cast hpow

theorem Within.exponent_lt (h : d.Within x) (hx : x < 2 ^ (1024 : Int)) : d.exponent < 309 := by
  have hdigits : (1 : ℚ) ≤ d.digits := by exact_mod_cast h.pos
  refine (zpow_lt_zpow_iff_right₀ (show (1 : ℚ) < 10 by norm_num)).mp ?_
  calc (10 : ℚ) ^ d.exponent ≤ d.digits * 10 ^ d.exponent :=
        le_mul_of_one_le_left (by positivity) hdigits
    _ ≤ x := h.le
    _ < 2 ^ (1024 : Int) := hx
    _ < 10 ^ (309 : Int) := two_pow_lt

end Decimal

/-- No positive number is far below the least one. -/
theorem tiny_le (hm : 0 < m) (hq : -1074 ≤ q) : (10 : ℚ) ^ (-358 : Int) ≤ m * 2 ^ q := by
  have hone : (1 : ℚ) ≤ m := by exact_mod_cast hm
  have hpow : (2 : ℚ) ^ 1074 ≤ 10 ^ 358 := by
    rw [show 1074 = 3 * 358 by rfl, pow_mul]
    gcongr
    norm_num
  calc (10 : ℚ) ^ (-358 : Int) = (10 ^ (358 : Nat))⁻¹ := by rw [zpow_neg, zpow_ofNat]
    _ ≤ (2 ^ (1074 : Nat))⁻¹ := inv_anti₀ (by positivity) hpow
    _ = 2 ^ (-1074 : Int) := by rw [zpow_neg, zpow_ofNat]
    _ ≤ 2 ^ q := zpow_le_zpow_right₀ (by norm_num) hq
    _ ≤ m * 2 ^ q := le_mul_of_one_le_left (by positivity) hone

/-- A neighbour on a grid of seventeen digits at most is within the interval of its number. -/
theorem within_onGrid {k : Nat} (hk : k ≤ 17) (hlow : (10 : ℚ) ^ e ≤ m * 2 ^ q)
    (hhigh : (m : ℚ) * 2 ^ q < 10 ^ (e + 1)) (htiny : (10 : ℚ) ^ (-358 : Int) ≤ m * 2 ^ q)
    (hone : 1 ≤ k) (h : onGrid .double tie m q (e - k + 1) = some d) :
    Decimal.Within ((m + 1 / 2) * 2 ^ q) ⟨d, e - k + 1⟩ := by
  obtain ⟨hle, hnear, hpos⟩ := onGrid_some h
  have hten : (1 : ℚ) < 10 := by norm_num
  have hunit : (0 : ℚ) < 10 ^ (e - k + 1) := by positivity
  have hcoarse : (10 : ℚ) ^ (e - k + 1) ≤ m * 2 ^ q := by
    refine le_trans ?_ hlow
    exact zpow_le_zpow_right₀ hten.le (by omega)
  have hsplit : (10 : ℚ) ^ (e + 1) = 10 ^ k * 10 ^ (e - k + 1) := by
    rw [← zpow_natCast, ← zpow_add₀ (by norm_num)]
    congr 1
    omega
  have hlt : (d : ℚ) * 10 ^ (e - k + 1) < (10 ^ k + 1) * 10 ^ (e - k + 1) := by
    calc (d : ℚ) * 10 ^ (e - k + 1) ≤ m * 2 ^ q + 10 ^ (e - k + 1) := hnear
      _ < 10 ^ (e + 1) + 10 ^ (e - k + 1) := by gcongr
      _ = (10 ^ k + 1) * 10 ^ (e - k + 1) := by rw [hsplit]; ring
  have hlt : d < 10 ^ k + 1 := by exact_mod_cast lt_of_mul_lt_mul_right hlt hunit.le
  have hpow : 10 ^ k ≤ 10 ^ 17 := Nat.pow_le_pow_right (by decide) hk
  have hexp : -358 < e + 1 := (zpow_lt_zpow_iff_right₀ hten).mp (htiny.trans_lt hhigh)
  have hshort : d ≤ 10 ^ 17 := by omega
  have hexp : -400 ≤ e - k + 1 := by omega
  exact ⟨hpos hcoarse, hshort, hexp, hle⟩

/-- The shortest digits of a positive number of sixty-four bits. -/
theorem within_shortest (hm : 0 < m) (hb : m < 2 ^ 53) (hq : -1074 ≤ q) (tie : Tie) :
    (shortest .double tie m q).Within ((m + 1 / 2) * 2 ^ q) := by
  obtain ⟨r, hr⟩ : ∃ r, r = Binary.ratio m q := ⟨_, rfl⟩
  have hvalue : quotient r = m * 2 ^ q := by
    rw [hr, Binary.ratio, quotient_shiftRatio, quotient, Nat.cast_one, div_one]
  have hden : 0 < r.2 := hr ▸ shiftRatio_pos Nat.one_pos m q
  have hnum : 0 < r.1 := by
    rw [hr, Binary.ratio, shiftRatio]
    split
    · exact Nat.mul_pos hm (Nat.pow_pos (by decide))
    · exact hm
  obtain ⟨hlow, hhigh⟩ := log10Ratio_bracket hnum hden
  rw [Prod.mk.eta, hvalue] at hlow hhigh
  obtain ⟨k, hk, hone, d, hfound, hgrid⟩ :=
    shortestFrom_eq tie hm hb hlow (show 1 ≤ 17 by decide) (show 17 < 1 + 20 by decide)
  unfold shortest
  simp only [← hr]
  rw [hfound]
  exact (within_onGrid hk hlow hhigh (tiny_le hm hq) hone hgrid).strip 20

end Retrace.Number
