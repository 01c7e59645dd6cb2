import Retrace.Proofs.Json.Powers
import Retrace.Proofs.Json.Restores

/-! Finite floating point numbers of sixty-four bits are read from their written forms. -/
namespace Retrace.Json

open Retrace.Text Retrace.Number Reader

variable {r : Input} {n : Nat} {e k : Int} {ws fs : List Char} {d : Decimal}

namespace Numeral

/-! ### The parts of a number -/

theorem seesDigit_digit {c : Char} (h : c.isDigit) : seesDigit (some c :: r) = true := by
  simp [seesDigit, digit?_some h]

/-- Digits of a fraction within the limit are gathered before what follows them is looked at. -/
theorem fraction_digits (hf : ∀ c ∈ fs, c.isDigit) (hne : fs ≠ []) (hr : seesDigit r = false)
    (hn : Nat.ofDigitChars 10 fs n ≤ gatherLimit) (negative : Bool) (e : Int) :
    fraction negative n e (fs.map some ++ r) =
      afterFraction negative (Nat.ofDigitChars 10 fs n) (e - fs.length) r := by
  have hg := gather_digits hr gatherLimit n fs hf hn
  have hlen : fs.length ≠ 0 := by simpa using hne
  simp only [fraction, hg, hr, if_neg hlen, Bool.false_eq_true, if_false]

/-- The written form of an exponent after its letter. -/
def exponentText (k : Int) : List Char :=
  (if k < 0 then '-' else '+') :: Nat.toDigits 10 k.natAbs

theorem exponent_eq (h : AtEnd r) (hk : k.natAbs ≤ exponentLimit) (negative : Bool) (n : Nat)
    (e : Int) :
    exponent negative n e ((exponentText k).map some ++ r) = ofParts negative n (e + k) r := by
  obtain ⟨a, ha⟩ : ∃ a, a = k.natAbs := ⟨_, rfl⟩
  have hr := (number_over h).1
  have hvalue : Nat.ofDigitChars 10 (Nat.toDigits 10 a) 0 = a := Nat.ofDigitChars_ten_toDigits
  have hdigits := (whole_toDigits a).digits
  have hg := gather_digits hr exponentLimit 0 _ hdigits (by rwa [hvalue, ha])
  rw [hvalue] at hg
  rw [exponentText, ← ha]
  cases hds : Nat.toDigits 10 a with
  | nil => exact absurd hds Nat.toDigits_ne_nil
  | cons c cs =>
    rw [hds] at hdigits hg
    have hs : seesDigit (some c :: (cs.map some ++ r)) = true :=
      seesDigit_digit (hdigits c List.mem_cons_self)
    simp only [List.map_cons, List.cons_append] at hg
    by_cases hneg : k < 0
    · have hsum : e - a = e + k := by omega
      simp [hneg, exponent, exponentSign, hs, hg, hr, hsum]
    · have hsum : e + a = e + k := by omega
      simp [hneg, exponent, exponentSign, hs, hg, hr, hsum]

/-- A number with a point is read up to the end of its fraction. -/
theorem unsigned_point (hw : Whole ws) (hf : ∀ c ∈ fs, c.isDigit) (hne : fs ≠ [])
    (hr : seesDigit r = false) (hn : Nat.ofDigitChars 10 (ws ++ fs) 0 ≤ gatherLimit)
    (negative : Bool) :
    unsigned negative ((ws ++ '.' :: fs).map some ++ r) =
      afterFraction negative (Nat.ofDigitChars 10 (ws ++ fs) 0) (-fs.length) r := by
  rw [Nat.ofDigitChars_append] at hn ⊢
  have hwhole : Nat.ofDigitChars 10 ws 0 ≤ gatherLimit := (le_ofDigitChars fs _).trans hn
  have hpoint : seesDigit (some '.' :: (fs.map some ++ r)) = false := by
    simp only [seesDigit, List.head?_cons]
    decide
  rw [List.map_append, List.append_assoc, List.map_cons, List.cons_append,
    unsigned_whole hw hpoint hwhole, afterDigits, List.head?_cons, if_pos rfl, List.tail_cons,
    fraction_digits hf hne hr hn]
  simp

/-! ### Numbers that are no whole ones -/

/-- A text that is read as digits and the power of ten after them, whatever sign stands before it. -/
structure Spells (u : List Char) (n : Nat) (e : Int) : Prop where
  starts : ∃ c cs, u = c :: cs ∧ c.isDigit
  takes : ∀ negative r, AtEnd r → unsigned negative (u.map some ++ r) = ofParts negative n e r

theorem seesDigit_letter (r : Input) : seesDigit (some 'e' :: r) = false := by
  simp only [seesDigit, List.head?_cons]
  decide

theorem seesExponent_letter (r : Input) : seesExponent (some 'e' :: r) = true := by
  simp [seesExponent]

theorem spells_point (hw : Whole ws) (hf : ∀ c ∈ fs, c.isDigit) (hne : fs ≠ [])
    (hn : Nat.ofDigitChars 10 (ws ++ fs) 0 ≤ gatherLimit) :
    Spells (ws ++ '.' :: fs) (Nat.ofDigitChars 10 (ws ++ fs) 0) (-fs.length) where
  starts := hw.head _
  takes negative r h := by
    obtain ⟨hr, he, -⟩ := number_over h
    rw [unsigned_point hw hf hne hr hn, afterFraction, he]
    rfl

theorem spells_point_exponent (hw : Whole ws) (hf : ∀ c ∈ fs, c.isDigit) (hne : fs ≠ [])
    (hn : Nat.ofDigitChars 10 (ws ++ fs) 0 ≤ gatherLimit) (hk : k.natAbs ≤ exponentLimit) :
    Spells (ws ++ '.' :: fs ++ 'e' :: exponentText k) (Nat.ofDigitChars 10 (ws ++ fs) 0)
      (-fs.length + k) where
  starts := by
    rw [List.append_assoc]
    exact hw.head _
  takes negative r h := by
    rw [List.map_append, List.append_assoc, List.map_cons, List.cons_append,
      unsigned_point hw hf hne (seesDigit_letter _) hn, afterFraction, seesExponent_letter, if_pos rfl,
      List.tail_cons, exponent_eq h hk]

theorem spells_exponent (hw : Whole ws) (hn : Nat.ofDigitChars 10 ws 0 ≤ gatherLimit)
    (hk : k.natAbs ≤ exponentLimit) :
    Spells (ws ++ 'e' :: exponentText k) (Nat.ofDigitChars 10 ws 0) k where
  starts := hw.head _
  takes negative r h := by
    rw [List.map_append, List.append_assoc, List.map_cons, List.cons_append,
      unsigned_whole hw (seesDigit_letter _) hn, afterDigits, List.head?_cons,
      if_neg (by decide), seesExponent_letter, if_pos rfl, List.tail_cons, exponent_eq h hk]
    simp

/-! ### Written forms -/

/-- Digits with zeros after them stand before a point as they are. -/
theorem whole_zeros (hn : 0 < n) (k : Nat) :
    Whole (Nat.toDigits 10 n ++ List.replicate k '0') where
  digits c hc := by
    rcases List.mem_append.mp hc with hc | hc
    · exact (whole_toDigits n).digits c hc
    · rw [List.eq_of_mem_replicate hc]
      decide
  starts := by
    have hz := head?_toDigits_ne_zero hn
    cases hds : Nat.toDigits 10 n with
    | nil => exact absurd hds Nat.toDigits_ne_nil
    | cons c cs =>
      rw [hds] at hz
      exact Or.inr ⟨c, _, rfl, by simpa using hz⟩

theorem isDigit_of_mem_zero : ∀ c ∈ ['0'], c.isDigit := by
  intro c hc
  rw [List.mem_singleton.mp hc]
  decide

theorem spells_zero : Spells ['0', '.', '0'] 0 (-1) :=
  spells_point ⟨isDigit_of_mem_zero, Or.inl rfl⟩ isDigit_of_mem_zero (List.cons_ne_nil _ _)
    (by decide)

/-- A whole number that is written without an exponent has a zero after the point. -/
theorem spells_positional_whole (hd : 0 < d.digits) (he : 0 ≤ d.exponent)
    (hn : d.digits * 10 ^ (d.exponent.toNat + 1) ≤ gatherLimit) :
    Spells (Style.renderPositional true d).toList (d.digits * 10 ^ (d.exponent.toNat + 1)) (-1) := by
  obtain ⟨k, hk⟩ : ∃ k, k = d.exponent.toNat := ⟨_, rfl⟩
  have hvalue : Nat.ofDigitChars 10 (Nat.toDigits 10 d.digits ++ List.replicate k '0' ++ ['0']) 0 =
      d.digits * 10 ^ (k + 1) := by
    rw [List.append_assoc, ← List.replicate_succ', Nat.ofDigitChars_append,
      Nat.ofDigitChars_ten_toDigits, Nat.ofDigitChars_replicate_zero, mul_comm]
  have hspells := spells_point (whole_zeros hd k) isDigit_of_mem_zero (List.cons_ne_nil _ _)
    (by rwa [hvalue, hk])
  rw [hvalue, hk] at hspells
  simpa [Style.renderPositional, he, toList_toString_nat] using hspells

/-- Digits with zeros before them, so that there is one more than the places after the point. -/
def padded (places n : Nat) : List Char :=
  List.replicate (places + 1 - (Nat.toDigits 10 n).length) '0' ++ Nat.toDigits 10 n

theorem isDigit_of_mem_padded {c : Char} {places : Nat} (h : c ∈ padded places n) : c.isDigit := by
  rcases List.mem_append.mp h with h | h
  · rw [List.eq_of_mem_replicate h]
    decide
  · exact (whole_toDigits n).digits c h

theorem lt_length_padded (places n : Nat) : places < (padded places n).length := by
  rw [padded, List.length_append, List.length_replicate]
  omega

/-- What stands before the point is a single zero or starts with the first digit. -/
theorem whole_padded (hn : 0 < n) (places : Nat) :
    Whole ((padded places n).take ((padded places n).length - places)) where
  digits c hc := isDigit_of_mem_padded (List.mem_of_mem_take hc)
  starts := by
    obtain ⟨ds, hds⟩ : ∃ ds, ds = Nat.toDigits 10 n := ⟨_, rfl⟩
    have hz := head?_toDigits_ne_zero hn
    rw [padded, ← hds, List.length_append, List.length_replicate]
    rw [← hds] at hz
    by_cases hlen : ds.length ≤ places
    · have hone : places + 1 - ds.length + ds.length - places = 1 := by omega
      have hpad : places + 1 - ds.length = places - ds.length + 1 := by omega
      rw [hone, hpad, List.replicate_succ]
      exact Or.inl rfl
    · have hnone : places + 1 - ds.length = 0 := by omega
      rw [hnone, List.replicate_zero, List.nil_append, Nat.zero_add]
      cases ds with
      | nil => exact absurd (Nat.zero_le _) hlen
      | cons c cs =>
        obtain ⟨j, hj⟩ : ∃ j, (c :: cs).length - places = j + 1 :=
          ⟨(c :: cs).length - places - 1, by omega⟩
        rw [hj, List.take_succ_cons]
        exact Or.inr ⟨c, _, rfl, by simpa using hz⟩

/-- A number with places after the point that is written without an exponent. -/
theorem spells_positional_fraction (hd : 0 < d.digits) (he : d.exponent < 0)
    (hn : d.digits ≤ gatherLimit) :
    Spells (Style.renderPositional true d).toList d.digits d.exponent := by
  obtain ⟨places, hplaces⟩ : ∃ places, places = (-d.exponent).toNat := ⟨_, rfl⟩
  obtain ⟨ps, hps⟩ : ∃ ps, ps = padded places d.digits := ⟨_, rfl⟩
  have hdigits : ∀ c ∈ ps, c.isDigit := fun c hc => isDigit_of_mem_padded (hps ▸ hc)
  have hvalue : Nat.ofDigitChars 10 ps 0 = d.digits := by
    rw [hps, padded, Nat.ofDigitChars_append, Nat.ofDigitChars_replicate_zero, mul_zero,
      Nat.ofDigitChars_ten_toDigits]
  have hlen : places < ps.length := hps ▸ lt_length_padded places d.digits
  have hdrop : (ps.drop (ps.length - places)).length = places := by
    rw [List.length_drop]
    omega
  have hne : ps.drop (ps.length - places) ≠ [] := by
    rw [← List.length_pos_iff_ne_nil, hdrop]
    omega
  have hwhole : Whole (ps.take (ps.length - places)) := hps ▸ whole_padded hd places
  have hspells := spells_point hwhole (fun c hc => hdigits c (List.mem_of_mem_drop hc)) hne
    (by rwa [List.take_append_drop, hvalue])
  rw [List.take_append_drop, hvalue, hdrop] at hspells
  have hexp : -(places : Int) = d.exponent := by omega
  have htext : (Style.renderPositional true d).toList =
      ps.take (ps.length - places) ++ '.' :: ps.drop (ps.length - places) := by
    rw [Style.renderPositional, if_neg (by omega), String.toList_ofList, toList_toString_nat,
      ← hplaces, hps]
    rfl
  rwa [hexp, ← htext] at hspells

/-- The sign and the digits of an exponent in a record. -/
theorem toList_exponent (k : Int) :
    ((if k < 0 then "-" else if Style.record.signed then "+" else "") ++ toString k.natAbs).toList =
      exponentText k := by
  rw [String.toList_append, toList_toString_nat, exponentText]
  split
  · rfl
  · rfl

/-- A number that is written with an exponent has a point after its first digit if it has others. -/
theorem spells_renderExponent (hn : d.digits ≤ gatherLimit)
    (hk : (d.exponent + (Nat.toDigits 10 d.digits).length - 1).natAbs ≤ exponentLimit) :
    Spells (Style.record.renderExponent d).toList d.digits d.exponent := by
  have hvalue : Nat.ofDigitChars 10 (Nat.toDigits 10 d.digits) 0 = d.digits :=
    Nat.ofDigitChars_ten_toDigits
  have hw := whole_toDigits d.digits
  unfold Style.renderExponent
  simp only [toList_toString_nat]
  rw [String.append_assoc, String.append_assoc, String.toList_append, String.toList_append,
    toList_exponent]
  cases hds : Nat.toDigits 10 d.digits with
  | nil => exact absurd hds Nat.toDigits_ne_nil
  | cons c cs =>
    rw [hds] at hvalue hw hk
    cases cs with
    | nil =>
      have hspells := spells_exponent hw (by rwa [hvalue]) hk
      rw [hvalue] at hspells
      simpa using hspells
    | cons c' cs =>
      have hc : c ≠ '0' := by
        rcases hw.starts with h | ⟨b, bs, h, hb⟩
        · simp at h
        · rwa [← (List.cons.inj h).1] at hb
      have hfirst : Whole [c] := ⟨by simpa using hw.digits c, Or.inr ⟨c, [], rfl, hc⟩⟩
      have hrest : ∀ b ∈ c' :: cs, b.isDigit := fun b hb => hw.digits b (List.mem_cons_of_mem c hb)
      have hvalue : Nat.ofDigitChars 10 ([c] ++ c' :: cs) 0 = d.digits := hvalue
      have hspells := spells_point_exponent hfirst hrest (List.cons_ne_nil c' cs)
        (by rwa [hvalue]) hk
      have hexp : -((c' :: cs).length : Int) + (d.exponent + (c :: c' :: cs).length - 1) =
          d.exponent := by
        simp only [List.length_cons]
        omega
      rw [hvalue, hexp] at hspells
      simpa using hspells

/-- A decimal number that can be written for one of sixty-four bits is written so that its digits are
read with its exponent or with a negative one. -/
theorem spells_renderDecimal {x : ℚ} (hd : d.Within x) (hx : x < 2 ^ (1024 : Int)) :
    ∃ n e, Spells (Style.record.renderDecimal d).toList n e ∧
      (e < 0 ∨ n = d.digits ∧ e = d.exponent) := by
  obtain ⟨l, hl⟩ : ∃ l, l = (Nat.toDigits 10 d.digits).length := ⟨_, rfl⟩
  have hshort := hd.short
  have hlimit : d.digits ≤ gatherLimit := hd.short.trans (by decide)
  have hlen : (toString d.digits).length = l := by
    rw [hl, ← toList_toString_nat, String.length_toList]
  have hfew : l ≤ 18 := by
    rw [hl, Nat.length_toDigits_le_iff (by decide) (by decide)]
    omega
  have hpow : d.digits < 10 ^ l := by
    have hlpos : 0 < l := hl ▸ Nat.length_toDigits_pos
    rw [← Nat.length_toDigits_le_iff (by decide) hlpos, hl]
  have hlow := hd.low
  have hhigh := hd.exponent_lt hx
  rw [Style.renderDecimal, hlen]
  simp only [Style.record]
  split
  · rename_i hpositional
    have hrange : d.exponent + l - 1 ≤ 15 := by
      rcases hpositional with hzero | hrange
      · exact absurd hzero hd.pos.ne'
      · exact hrange.2
    by_cases he : 0 ≤ d.exponent
    · have hsum : l + (d.exponent.toNat + 1) ≤ 17 := by omega
      have hbound : d.digits * 10 ^ (d.exponent.toNat + 1) ≤ gatherLimit := by
        calc d.digits * 10 ^ (d.exponent.toNat + 1)
            ≤ 10 ^ l * 10 ^ (d.exponent.toNat + 1) := Nat.mul_le_mul_right _ hpow.le
          _ = 10 ^ (l + (d.exponent.toNat + 1)) := (Nat.pow_add _ _ _).symm
          _ ≤ 10 ^ 17 := Nat.pow_le_pow_right (by decide) hsum
          _ ≤ gatherLimit := by decide
      exact ⟨_, _, spells_positional_whole hd.pos he hbound, Or.inl (by decide)⟩
    · have he : d.exponent < 0 := by omega
      exact ⟨_, _, spells_positional_fraction hd.pos he hlimit, Or.inl he⟩
  · have hexponent : (d.exponent + l - 1).natAbs ≤ exponentLimit := by
      simp only [exponentLimit]
      omega
    exact ⟨_, _, spells_renderExponent hlimit (hl ▸ hexponent), Or.inr ⟨rfl, rfl⟩⟩

/-- The magnitude of a finite number of sixty-four bits, as it is written. -/
def magnitude (m : Nat) (q : Int) : Decimal :=
  if m = 0 then ⟨0, 0⟩ else shortest .double .even m q

/-- What is written for a finite number of sixty-four bits is read as digits that take their power of
ten. -/
theorem spells_magnitude {m : Nat} {q : Int} (hb : m < 2 ^ 53) (hlow : -1074 ≤ q) (hq : q ≤ 971) :
    ∃ n e, Spells (Style.record.renderDecimal (magnitude m q)).toList n e ∧
      (applyPower (Binary.ofNat .double n) 4 e).isSome := by
  unfold magnitude
  split
  · have htext : (Style.record.renderDecimal ⟨0, 0⟩).toList = ['0', '.', '0'] := by decide
    rw [htext]
    exact ⟨0, -1, spells_zero, applyPower_neg _ 4 (by decide)⟩
  · have hm : 0 < m := by omega
    have hlt : ((m + 1 / 2) * 2 ^ q : ℚ) < 2 ^ (1024 : Int) := by
      have hcast : (m : ℚ) + 1 ≤ 2 ^ 53 := by exact_mod_cast hb
      refine lt_of_le_of_lt ?_ overflow_lt
      rw [overflow]
      gcongr
      · linarith
      · norm_num
    obtain ⟨n, e, hspells, hcase⟩ := spells_renderDecimal (within_shortest hm hb hlow .even) hlt
    refine ⟨n, e, hspells, ?_⟩
    rcases hcase with he | ⟨rfl, rfl⟩
    · exact applyPower_neg _ 4 he
    · exact applyPower_shortest hm hb hlow hq rfl

/-- Digits that take their power of ten are read as a floating point number. -/
theorem Spells.read {u : List Char} (h : Spells u n e)
    (hp : (applyPower (Binary.ofNat .double n) 4 e).isSome) (negative : Bool) :
    ∃ y, ∀ r, AtEnd r →
      Numeral.read (((if negative then ['-'] else []) ++ u).map some ++ r) = .ok (.float y, r) := by
  obtain ⟨x, hx⟩ := Option.isSome_iff_exists.mp hp
  refine ⟨if negative then x.negate else x, fun r hr => ?_⟩
  have hparts : ofParts negative n e r = .ok (.float (if negative then x.negate else x), r) := by
    rw [ofParts, hx]
    rfl
  have htaken := h.takes negative r hr
  rw [hparts] at htaken
  cases negative with
  | true => simpa [Numeral.read] using htaken
  | false =>
    obtain ⟨c, cs, rfl, hc⟩ := h.starts
    have hminus : c ≠ '-' := by
      rintro rfl
      exact absurd hc (by decide)
    simpa [Numeral.read, hminus] using htaken

end Numeral

namespace Decoder

/-- A finite number of sixty-four bits is read from its written form as a floating point number. -/
theorem restores_float {x : Binary} (hw : x.Wide) (hf : x.isFinite = true) (room : Nat) :
    ∃ y, Restores (Decoder.float room) (.float x) y := by
  cases x with
  | nan => cases hf
  | infinite s => cases hf
  | finite negative m q =>
    obtain ⟨hb, hlow, hq⟩ := hw
    obtain ⟨n, e, hspells, hp⟩ := Numeral.spells_magnitude hb hlow hq
    obtain ⟨y, hread⟩ := hspells.read hp negative
    obtain ⟨u, hu⟩ : ∃ u, u = (if negative then ['-'] else []) ++
        (Style.record.renderDecimal (Numeral.magnitude m q)).toList := ⟨_, rfl⟩
    have htext : (Json.float (.finite negative m q)).render.toList = u := by
      rw [Json.float, if_pos hf, Json.render, Style.render, String.toList_append, hu]
      cases negative <;> rfl
    have hstarts : ∃ c cs, u = c :: cs ∧ (c = '-' ∨ c.isDigit = true) := by
      obtain ⟨c, cs, hcs, hc⟩ := hspells.starts
      rw [hu, hcs]
      cases negative with
      | true => exact ⟨'-', c :: cs, rfl, Or.inl rfl⟩
      | false => exact ⟨c, cs, rfl, Or.inr hc⟩
    obtain ⟨c, cs, hcs, hc⟩ := hstarts
    obtain ⟨hgap, hbracket⟩ := not_gap_of_number hc
    rw [← hu, hcs] at hread
    refine ⟨y, ?_⟩
    rw [Restores, htext, hcs]
    refine ⟨⟨c, cs, rfl, hgap, hbracket⟩, fun r hr => ?_⟩
    have hnumeral : numeral "f64" room ((c :: cs).map some ++ r) = .ok (.float y, r) := by
      rw [List.map_cons, List.cons_append, numeral, bind_eq (next_eq hgap)]
      dsimp only
      rw [if_pos (sees_number hc)]
      exact hread r hr
    rw [Decoder.float, bind_eq hnumeral]
    rfl

end Decoder

end Retrace.Json
