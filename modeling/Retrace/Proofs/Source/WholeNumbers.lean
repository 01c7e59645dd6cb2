import Retrace.Proofs.Source.Agreement

/-! The whole numbers that are read off expressions. A sign is turned only after the literal has
been read, so that a negative number keeps its value only if it would without the sign. -/
namespace Retrace.Source.Node

open Text

/-- The node is an expression that denotes a whole number: a literal, perhaps with signs,
parentheses and references around it. -/
inductive Denotes : Node → Int → Prop
  | whole {n w k} : n.form = .literal (.ofText w) → WholeLiteral w k → Denotes n k
  | byte {n w k} : n.form = .literal (.ofText w) → ByteLiteral w k → Denotes n k
  | negation {n x} {k : Int} : n.form = .negation → n.operands = [x] → Denotes x k →
      Denotes n (-k)
  | inner {n x k} : n.form = .parenthesized ∨ n.form = .reference → n.operands = [x] →
      Denotes x k → Denotes n k

/-- The outermost sign of an expression, in parentheses and references perhaps. -/
inductive OuterSign : Node → Node → Prop
  | here {n} : n.form = .negation → OuterSign n n
  | inner {n x q} : n.form = .parenthesized ∨ n.form = .reference → n.operands = [x] →
      OuterSign x q → OuterSign n q

variable {n x q : Node} {k : Int} {text : List Char} {s : String}

/-- Without a sign, and with one on a number in the range, the value is that of the number. -/
theorem Denotes.spells (h : n.Denotes k)
    (hk : (k.natAbs : Int) ≤ Value.greatestInt ∨ ¬∃ q, n.OuterSign q) : n.Spells (.whole k) := by
  induction h with
  | whole hn hw => exact .whole hn hw
  | byte hn hw => exact .byte hn hw
  | @negation n x k hn hx h ih =>
    rcases hk with hk | hk
    · rw [Int.natAbs_neg] at hk
      refine .negation hn hx (ih (.inl hk)) ?_
      rw [Value.greatestInt] at hk
      omega
    · exact absurd ⟨n, .here hn⟩ hk
  | @inner n x k hn hx h ih =>
    have hsign : (∃ q, x.OuterSign q) → ∃ q, n.OuterSign q := by
      rintro ⟨q, hq⟩
      exact ⟨q, .inner hn hx hq⟩
    have hx' := ih (hk.imp_right (mt hsign))
    rcases hn with hn | hn
    · exact .parenthesized hn hx hx'
    · exact .reference hn hx hx'

theorem value_negation_object (hn : n.form = .negation) (hx : n.operands = [x])
    (hs : x.value text = .object s) : n.value text = .object (n.span.slice text) := by
  have hoperand := (operandValue_single text hx).trans hs
  obtain ⟨form, span, children⟩ := n
  obtain rfl : form = .negation := hn
  have hchildren : operandValue text children = .object s := hoperand
  rw [value, hchildren]
  rfl

/-- Out of the range a number is described, and its sign is not turned. -/
theorem Denotes.described (h : n.Denotes k) (hk : Value.greatestInt < k.natAbs)
    (text : List Char) : ∃ s, n.value text = .object s := by
  induction h with
  | @whole n w k hn hw =>
    obtain ⟨suffix, hread⟩ := hw.read
    have hfits : ¬ Value.fits k = true := by rw [Value.fits_iff]; omega
    rw [value_literal hn, hread, Literal.value, Value.ofInt, if_neg hfits]
    exact ⟨_, rfl⟩
  | byte hn hw =>
    have hlt := hw.lt
    rw [Value.greatestInt] at hk
    omega
  | negation hn hx h ih =>
    obtain ⟨s, hs⟩ := ih (by rwa [Int.natAbs_neg] at hk)
    exact ⟨_, value_negation_object hn hx hs⟩
  | inner hn hx h ih =>
    obtain ⟨s, hs⟩ := ih hk
    exact ⟨s, (value_inner hn hx).trans hs⟩

/-- The description of a number with a sign is its text, from the outermost sign on. -/
theorem Denotes.value_signed (h : n.Denotes k) (hk : Value.greatestInt < k.natAbs)
    (hq : n.OuterSign q) (text : List Char) : n.value text = .object (q.span.slice text) := by
  induction hq with
  | here hn =>
    cases h with
    | whole hn' | byte hn' => rw [hn] at hn'; cases hn'
    | inner hn' => rw [hn] at hn'; rcases hn' with hn' | hn' <;> cases hn'
    | negation _ hx h =>
      obtain ⟨s, hs⟩ := h.described (by rwa [Int.natAbs_neg] at hk) text
      exact value_negation_object hn hx hs
  | inner hn hx _ ih =>
    cases h with
    | whole hn' | byte hn' => rw [hn'] at hn; rcases hn with hn | hn <;> cases hn
    | negation hn' => rw [hn'] at hn; rcases hn with hn | hn <;> cases hn
    | inner _ hx' h =>
      obtain rfl := List.singleton_inj.mp (hx.symm.trans hx')
      exact (value_inner hn hx).trans (ih h)

/-- A number that is read off an expression is the one it denotes, and is in range with its sign
turned. -/
theorem Denotes.eq_of_value (h : n.Denotes k) {v : Int} (hv : n.value text = .int v) :
    v = k ∧ Value.fits (-v) = true := by
  rcases le_or_gt (k.natAbs : Int) Value.greatestInt with hk | hk
  · have hfits : Value.fits k = true ∧ Value.fits (-k) = true :=
      fits_of_natAbs_le (by rw [Value.greatestInt] at hk; omega)
    have hvalue := (h.spells (.inl hk)).value_eq text
    rw [hv, Datum.value, Value.ofInt, if_pos hfits.1] at hvalue
    obtain rfl := Value.int.inj hvalue
    exact ⟨rfl, hfits.2⟩
  · obtain ⟨s, hs⟩ := h.described hk text
    rw [hv] at hs
    cases hs

/-- An expression that denotes a whole number has the value of that number just if the number is in
range without its sign, or has none, or is out of range and spelled like its value. Otherwise the
expression is described by its text. No sign is turned that takes a number out of range. -/
theorem Denotes.value_iff (h : n.Denotes k) (text : List Char) :
    (n.value text = .ofInt k ↔ (k.natAbs : Int) ≤ Value.greatestInt ∨ (¬∃ q, n.OuterSign q) ∨
      k ≠ Value.leastInt ∧ ∃ q, n.OuterSign q ∧ q.span.slice text = toString k) ∧
    (∀ q, Value.greatestInt < k.natAbs → n.OuterSign q →
      n.value text = .object (q.span.slice text)) ∧
    ∀ v, n.value text = .int v → v = k ∧ Value.fits (-v) = true := by
  refine ⟨⟨fun hvalue => ?_, ?_⟩, fun q hk hq => h.value_signed hk hq text, fun v => h.eq_of_value⟩
  · by_contra! hnot
    obtain ⟨hk, ⟨q, hq⟩, hspelled⟩ := hnot
    rw [h.value_signed hk hq, Value.ofInt] at hvalue
    split at hvalue
    · cases hvalue
    · rename_i hfits
      have hleast : k ≠ Value.leastInt := by
        rintro rfl
        exact hfits (by decide)
      exact hspelled hleast q hq (Value.object.inj hvalue)
  · rintro (hk | hsign | ⟨hleast, q, hq, hspelled⟩)
    · exact (h.spells (.inl hk)).value_eq text
    · exact (h.spells (.inr hsign)).value_eq text
    · rcases le_or_gt (k.natAbs : Int) Value.greatestInt with hk | hk
      · exact (h.spells (.inl hk)).value_eq text
      · have hfits : ¬ Value.fits k = true := by
          rw [Value.fits_iff]
          rw [Value.leastInt] at hleast ⊢
          rw [Value.greatestInt] at hk ⊢
          omega
        rw [h.value_signed hk hq, hspelled, Value.ofInt, if_neg hfits]

/-- Digits with no underscore among them. -/
theorem digits_of_all {base : Nat} {w : List Char}
    (h : w.all (fun c => (hexValue? c).any (· < base)) = true) :
    Digits base w (w.map fun c => (hexValue? c).getD 0) := by
  induction w with
  | nil => exact .nil
  | cons c w ih =>
    rw [List.all_cons, Bool.and_eq_true] at h
    obtain ⟨d, hc, hd⟩ := (Option.any_eq_true _ _).mp h.1
    rw [List.map_cons, hc]
    exact .digit hc (of_decide_eq_true hd) (ih h.2)

/-- The least number of sixty-four bits, in decimal digits. -/
def leastText : String := "-9223372036854775808"

theorem denotes_leastText (h : formsOf [n] =
    [(.negation, [(.literal (.ofText "9223372036854775808".toList), [])])]) :
    n.Denotes Value.leastInt ∧ n.OuterSign n := by
  simp only [formsOf, List.map_eq_cons_iff, List.map_eq_nil_iff, List.cons.injEq,
    Prod.mk.injEq] at h
  obtain ⟨_, _, ⟨rfl, rfl⟩, ⟨hn, x, _, hx, ⟨hform, -⟩, rfl⟩, -⟩ := h
  have hdigits : Digits 10 "9223372036854775808".toList _ := digits_of_all (by decide)
  have hwhole : WholeLiteral "9223372036854775808".toList 9223372036854775808 :=
    @WholeLiteral.mk [] 10 _ _ [] (by decide) (by decide) hdigits (by decide) (by decide)
  exact ⟨.negation hn hx (.whole hform hwhole), .here hn⟩

theorem denotes_parenthesized (h : formsOf [n] =
    [(.negation, [(.parenthesized, [.literal (.ofText "0x_FF".toList)])])]) :
    n.Denotes (-255) := by
  simp only [formsOf, List.map_eq_cons_iff, List.map_eq_nil_iff, List.cons.injEq,
    Prod.mk.injEq] at h
  obtain ⟨_, _, ⟨rfl, rfl⟩, ⟨hn, x, _, hx, ⟨hform, y, _, hy, hinner, rfl⟩, rfl⟩, -⟩ := h
  have hdigits : Digits 16 "FF".toList _ := digits_of_all (by decide)
  have hwhole : WholeLiteral "0x_FF".toList 255 :=
    @WholeLiteral.mk ['0', 'x'] 16 _ _ [] (by decide) (by decide) (.bar hdigits) (by decide)
      (by decide)
  exact .negation hn hx (.inner (.inl hform) hy (.whole hinner hwhole))

/-- The least number loses its value, and one in range keeps it. -/
theorem Denotes.value_iff_samples :
    (∃ n, readExpression leastText.toList = .ok n ∧ n.Denotes Value.leastInt ∧
      n.value leastText.toList ≠ .ofInt Value.leastInt) ∧
    ∃ n, readExpression "-(0x_FF)".toList = .ok n ∧ n.Denotes (-255) ∧
      n.value "-(0x_FF)".toList = .ofInt (-255) := by
  have hleast : (readExpression leastText.toList).toOption.any (fun n => formsOf [n] ==
      [(.negation, [(.literal (.ofText "9223372036854775808".toList), [])])]) = true := by
    decide +kernel
  have hinner : (readExpression "-(0x_FF)".toList).toOption.any (fun n => formsOf [n] ==
      [(.negation, [(.parenthesized, [.literal (.ofText "0x_FF".toList)])])]) = true := by
    decide +kernel
  constructor
  · cases hn : readExpression leastText.toList with
    | error f => rw [hn] at hleast; cases hleast
    | ok n =>
      rw [hn] at hleast
      obtain ⟨hdenotes, hsign⟩ := denotes_leastText (beq_iff_eq.mp hleast)
      refine ⟨n, rfl, hdenotes, fun hvalue => ?_⟩
      rcases (hdenotes.value_iff leastText.toList).1.mp hvalue with hk | hk | ⟨hk, -⟩
      · exact absurd hk (by decide)
      · exact hk ⟨n, hsign⟩
      · exact hk rfl
  · cases hn : readExpression "-(0x_FF)".toList with
    | error f => rw [hn] at hinner; cases hinner
    | ok n =>
      rw [hn] at hinner
      have hdenotes := denotes_parenthesized (beq_iff_eq.mp hinner)
      exact ⟨n, rfl, hdenotes, (hdenotes.value_iff _).1.mpr (.inl (by decide))⟩

end Retrace.Source.Node
