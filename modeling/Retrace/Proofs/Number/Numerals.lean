import Retrace.Proofs.Json.Integers

/-! Numbers are read as they are written. -/
namespace Retrace.Number

open Text

theorem digitsFrom_eq (n : Nat) (s : List Char) : digitsFrom n s = Nat.ofDigitChars 10 s n := by
  induction s generalizing n with
  | nil => rfl
  | cons c s ih =>
    rw [Nat.ofDigitChars_cons, ← ih]
    simp [digitsFrom, digitValue, Nat.mul_comm]

theorem isDigit_toDigits {c : Char} {n : Nat} (h : c ∈ Nat.toDigits 10 n) : isDigit c = true := by
  rw [Json.Numeral.isDigit_eq]
  exact Nat.isDigit_of_mem_toDigits (by decide) (by decide) h

theorem readNat?_toDigits (n : Nat) : readNat? (Nat.toDigits 10 n) = some n := by
  have hne : Nat.toDigits 10 n ≠ [] := Nat.toDigits_ne_nil
  have hdigits : (Nat.toDigits 10 n).all isDigit = true :=
    List.all_eq_true.mpr fun c hc => isDigit_toDigits hc
  simp [readNat?, hne, hdigits, digitsFrom_eq]

/-- The first character of a number is a digit. -/
theorem exists_cons_toDigits (n : Nat) : ∃ c s, Nat.toDigits 10 n = c :: s ∧ isDigit c = true := by
  cases h : Nat.toDigits 10 n with
  | nil => exact absurd h Nat.toDigits_ne_nil
  | cons c s => exact ⟨c, s, rfl, isDigit_toDigits (h ▸ List.mem_cons_self)⟩

theorem readInt?_toString {n limit : Nat} (h : n ≤ limit) :
    readInt? 0 limit (toString n).toList = some (n : Int) := by
  obtain ⟨c, s, hcs, hc⟩ := exists_cons_toDigits n
  have hplus : c ≠ '+' := by rintro rfl; exact absurd hc (by decide)
  have hminus : c ≠ '-' := by rintro rfl; exact absurd hc (by decide)
  have hread := readNat?_toDigits n
  rw [hcs] at hread
  have htext : (toString n).toList = c :: s := by rw [Nat.toString_eq_repr, Nat.toList_repr, hcs]
  have hbounds : (0 : Int) ≤ n ∧ (n : Int) ≤ limit := ⟨Int.natCast_nonneg n, Int.ofNat_le.mpr h⟩
  unfold readInt?
  rw [htext]
  split
  · rename_i heq
    exact absurd (List.cons.inj heq).1 hplus
  · rename_i heq
    exact absurd (List.cons.inj heq).1 hminus
  · rw [hread]
    exact if_pos hbounds

theorem isDigit_toString {c : Char} {n : Nat} (h : c ∈ (toString n).toList) :
    isDigit c = true := by
  rw [Nat.toString_eq_repr, Nat.toList_repr] at h
  exact isDigit_toDigits h

theorem toString_ne_nil (n : Nat) : (toString n).toList ≠ [] := by
  rw [Nat.toString_eq_repr, Nat.toList_repr]
  exact Nat.toDigits_ne_nil

theorem readWord32?_toString (n : UInt32) :
    readWord32? (toString n.toNat).toList = some n.toNat := by
  have hread : readInt? 0 0xFFFFFFFF (toString n.toNat).toList = some (n.toNat : Int) :=
    readInt?_toString (Nat.le_of_lt_succ n.toNat_lt)
  rw [readWord32?, hread]
  rfl

end Retrace.Number
