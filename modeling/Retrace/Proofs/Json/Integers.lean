import Retrace.Proofs.Json.Reads

/-! Integers of sixty-four bits are read as they are written. -/
namespace Retrace.Json

open Retrace.Text

variable {s r : Input} {limit acc n : Nat}

namespace Numeral

theorem isDigit_eq (c : Char) : Text.isDigit c = c.isDigit := by
  simp only [Text.isDigit, Char.isDigit, Char.le_def, ge_iff_le]

theorem digit?_some {c : Char} (h : c.isDigit) : digit? (some c) = some (c.toNat - 48) := by
  simp [digit?, Option.filter, isDigit_eq, h, digitValue]

theorem head?_toDigits_ne_zero (h : 0 < n) : (Nat.toDigits 10 n).head? ≠ some '0' := by
  induction n using Nat.strongRecOn with
  | ind n ih =>
    rw [Nat.toDigits_eq_if (by decide)]
    split
    · rename_i hn
      have : ∀ k < 10, 0 < k → [k.digitChar].head? ≠ some '0' := by decide
      exact this n hn h
    · have := ih (n / 10) (by omega) (by omega)
      rw [List.head?_append]
      cases hd : Nat.toDigits 10 (n / 10) with
      | nil => exact absurd hd Nat.toDigits_ne_nil
      | cons c ds => simpa [hd] using this

/-- What cannot go on with a value cannot go on with a number. -/
theorem number_over (h : AtEnd r) :
    seesDigit r = false ∧ seesExponent r = false ∧ r.head? ≠ some (some '.') := by
  cases hr : r.head? with
  | none => simp [seesDigit, seesExponent, hr]
  | some p =>
    rcases h p hr with rfl | rfl | rfl | hgap
    · simp only [seesDigit, seesExponent, hr]; decide
    · simp only [seesDigit, seesExponent, hr]; decide
    · simp only [seesDigit, seesExponent, hr]; decide
    · simp only [Reader.isGap, Bool.or_eq_true, decide_eq_true_eq] at hgap
      rcases hgap with ((rfl | rfl) | rfl) | rfl <;> simp only [seesDigit, seesExponent, hr] <;>
        decide

theorem gather_over (h : seesDigit r = false) : gather limit acc r = (acc, 0, r) := by
  cases r with
  | nil => rfl
  | cons p r =>
    have hp : digit? p = none := by simpa [seesDigit] using h
    simp [gather, hp]

theorem le_ofDigitChars (ds : List Char) (acc : Nat) : acc ≤ Nat.ofDigitChars 10 ds acc := by
  rw [Nat.ofDigitChars_eq_ofDigitChars_zero]
  have : 1 ≤ 10 ^ ds.length := Nat.one_le_pow _ _ (by decide)
  calc acc = 1 * acc := (Nat.one_mul _).symm
    _ ≤ 10 ^ ds.length * acc := Nat.mul_le_mul_right _ this
    _ ≤ _ := Nat.le_add_right _ _

/-- Digits are gathered to the last one when the number they spell stays below the limit. -/
theorem gather_digits (hr : seesDigit r = false) (limit acc : Nat) (ds : List Char)
    (hd : ∀ c ∈ ds, c.isDigit) (hn : Nat.ofDigitChars 10 ds acc ≤ limit) :
    gather limit acc (ds.map some ++ r) = (Nat.ofDigitChars 10 ds acc, ds.length, r) := by
  induction ds generalizing acc with
  | nil => simpa using gather_over hr
  | cons c ds ih =>
    rw [Nat.ofDigitChars_cons] at hn ⊢
    have hc : digit? (some c) = some (c.toNat - '0'.toNat) := digit?_some (hd c (by simp))
    have hm : 10 * acc + (c.toNat - '0'.toNat) = acc * 10 + (c.toNat - '0'.toNat) := by omega
    rw [hm] at hn ⊢
    have hle : ¬ limit < acc * 10 + (c.toNat - '0'.toNat) := by
      have := le_ofDigitChars ds (acc * 10 + (c.toNat - '0'.toNat))
      omega
    simp only [List.map_cons, List.cons_append, gather, hc, if_neg hle,
      ih _ (fun c' h => hd c' (by simp [h])) hn, List.length_cons]

theorem passDigits_over (h : seesDigit r = false) : passDigits r = (0, r) := by
  cases r with
  | nil => rfl
  | cons p r =>
    have hp : digit? p = none := by simpa [seesDigit] using h
    simp [passDigits, hp]

theorem afterDigits_over (h : AtEnd r) (negative : Bool) (n : Nat) :
    afterDigits negative n 0 r = .ok (ofDigits negative n, r) := by
  obtain ⟨_, he, hp⟩ := number_over h
  simp [afterDigits, he, hp]

/-- Digits that may stand before the point of a number: no zero stands before the others. -/
structure Whole (ws : List Char) : Prop where
  digits : ∀ c ∈ ws, c.isDigit
  starts : ws = ['0'] ∨ ∃ c cs, ws = c :: cs ∧ c ≠ '0'

theorem Whole.head {ws : List Char} (hw : Whole ws) (t : List Char) :
    ∃ c cs, ws ++ t = c :: cs ∧ c.isDigit := by
  have hdigits := hw.digits
  rcases hw.starts with rfl | ⟨c, cs, rfl, -⟩
  · exact ⟨'0', t, rfl, by decide⟩
  · exact ⟨c, cs ++ t, rfl, hdigits c List.mem_cons_self⟩

theorem whole_toDigits (n : Nat) : Whole (Nat.toDigits 10 n) where
  digits _ hc := Nat.isDigit_of_mem_toDigits (by decide) (by decide) hc
  starts := by
    rcases Nat.eq_zero_or_pos n with rfl | hpos
    · exact Or.inl (Nat.toDigits_zero 10)
    · have hz := head?_toDigits_ne_zero hpos
      cases hds : Nat.toDigits 10 n with
      | nil => exact absurd hds Nat.toDigits_ne_nil
      | cons c cs =>
        rw [hds] at hz
        exact Or.inr ⟨c, cs, rfl, by simpa using hz⟩

/-- Digits within the limit are gathered before what follows them is looked at. -/
theorem unsigned_whole {ws : List Char} (hw : Whole ws) (hr : seesDigit r = false)
    (hn : Nat.ofDigitChars 10 ws 0 ≤ gatherLimit) (negative : Bool) :
    unsigned negative (ws.map some ++ r) =
      afterDigits negative (Nat.ofDigitChars 10 ws 0) 0 r := by
  rcases hw.starts with rfl | ⟨c, cs, rfl, hc⟩
  · have hzero : Nat.ofDigitChars 10 ['0'] 0 = 0 := by decide
    simp [unsigned, hr, hzero]
  · have hg := gather_digits hr gatherLimit 0 _ hw.digits hn
    have hs : seesDigit (some c :: (cs.map some ++ r)) = true := by
      simp [seesDigit, digit?_some (hw.digits c (by simp))]
    simp only [List.map_cons, List.cons_append] at hg ⊢
    simp [unsigned, hc, hs, hg, passDigits_over hr]

/-- The digits of a number within the limit are read as that number. -/
theorem unsigned_toDigits (h : AtEnd r) (negative : Bool) (hn : n ≤ gatherLimit) :
    unsigned negative ((Nat.toDigits 10 n).map some ++ r) = .ok (ofDigits negative n, r) := by
  have hvalue : Nat.ofDigitChars 10 (Nat.toDigits 10 n) 0 = n := Nat.ofDigitChars_ten_toDigits
  rw [unsigned_whole (whole_toDigits n) (number_over h).1 (by rwa [hvalue]), hvalue,
    afterDigits_over h]

end Numeral

theorem toList_toString_nat (n : Nat) : (toString n).toList = Nat.toDigits 10 n := by
  rw [Nat.toString_eq_repr, Nat.toList_repr]

theorem toList_toString_int (n : Int) :
    (toString n).toList = (if n < 0 then ['-'] else []) ++ Nat.toDigits 10 n.natAbs := by
  rw [Int.toString_eq_repr, Int.repr_eq_if]
  by_cases h : 0 ≤ n
  · have hn : n.toNat = n.natAbs := by omega
    simp [h, hn]
  · have hn : (-n).toNat = n.natAbs := by omega
    have : n < 0 := by omega
    simp [h, hn, this]

/-- An integer of sixty-four bits is read as it is written. -/
theorem Numeral.read_toString {n : Int} (hlo : -0x8000000000000000 ≤ n)
    (hhi : n ≤ 0xFFFFFFFFFFFFFFFF) (h : AtEnd r) :
    Numeral.read ((toString n).toList.map some ++ r) = .ok (.whole n, r) := by
  rw [toList_toString_int]
  by_cases hneg : n < 0
  · have hu := unsigned_toDigits (n := n.natAbs) h true (by simp only [gatherLimit]; omega)
    have ho : ofDigits true n.natAbs = .whole n := by
      have h1 : ¬ (n.natAbs = 0 ∨ 0x8000000000000000 < n.natAbs) := by omega
      have h2 : -(n.natAbs : Int) = n := by omega
      simp only [ofDigits, Bool.not_true, Bool.false_eq_true, if_false, if_neg h1, h2]
    rw [ho] at hu
    simp [Numeral.read, hneg, hu]
  · have hu := unsigned_toDigits (n := n.natAbs) h false (by simp only [gatherLimit]; omega)
    have ho : ofDigits false n.natAbs = .whole n := by
      have h2 : (n.natAbs : Int) = n := by omega
      simp only [ofDigits, Bool.not_false, if_true, h2]
    rw [ho] at hu
    cases hds : Nat.toDigits 10 n.natAbs with
    | nil => exact absurd hds Nat.toDigits_ne_nil
    | cons c ds =>
      have hc : c ≠ '-' := by
        rintro rfl
        have hm : '-' ∈ Nat.toDigits 10 n.natAbs := by simp [hds]
        exact absurd (Nat.isDigit_of_mem_toDigits (by decide) (by decide) hm) (by decide)
      rw [hds] at hu
      simpa [Numeral.read, hneg, hc] using hu

end Retrace.Json
