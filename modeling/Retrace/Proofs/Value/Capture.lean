import Retrace.Proofs.Value.Shape
import Retrace.Source.Site
import Retrace.Trace.Datum

/-! The values that a program reports and that are read off a source text: which of them come back from
their records, and that those come back with the same variant at every place. -/
namespace Retrace

open Json Number

variable {v : Value} {vs : List Value}

namespace Value

theorem wide_ofInt (n : Int) : (ofInt n).Wide := by
  unfold ofInt
  split
  · rename_i hn
    exact hn
  · trivial

theorem wides_iff : Wides vs ↔ ∀ v ∈ vs, v.Wide := by
  induction vs with
  | nil => simp [Wides]
  | cons v vs ih => rw [Wides, ih, List.forall_mem_cons]

end Value

/-! ### Data of a program -/

namespace Datum

mutual
/-- Every number that a program reports has sixty-four bits, or is described. -/
theorem wide_value : ∀ d : Datum, d.value.Wide
  | whole n => Value.wide_ofInt n
  | float _ x => Binary.wide_round x
  | truth _ => trivial
  | char _ => trivial
  | text _ => trivial
  | nothing => trivial
  | list items => wides_values items
  | described _ => trivial

theorem wides_values : ∀ ds : List Datum, Value.Wides (values ds)
  | [] => trivial
  | d :: ds => ⟨wide_value d, wides_values ds⟩
end

end Datum

/-! ### Expressions -/

namespace Source

/-- A value in which every number has sixty-four bits, also when its sign is turned. -/
def Turnable (v : Value) : Prop := v.Wide ∧ ∀ k, v = .int k → Value.fits (-k) = true

theorem turnable_object (s : String) : Turnable (.object s) := ⟨trivial, by rintro k ⟨⟩⟩

theorem turnable_list {vs : List Value} (h : ∀ v ∈ vs, Turnable v) : Turnable (.list vs) :=
  ⟨Value.wides_iff.mpr fun v hv => (h v hv).1, by rintro k ⟨⟩⟩

/-- A number that is not negative can be turned when it has room. -/
theorem turnable_natural {n : Nat} (hn : Value.fits n = true) : Turnable (.int n) := by
  refine ⟨hn, ?_⟩
  rintro k ⟨⟩
  rw [Value.fits_iff, Value.leastInt, Value.greatestInt] at hn ⊢
  omega

theorem Literal.turnable : ∀ l : Literal, Turnable l.value
  | text _ | char _ | truth _ | other _ => ⟨trivial, by rintro k ⟨⟩⟩
  | byte b => by
    apply turnable_natural
    have hlt := b.toNat_lt
    rw [Value.fits_iff, Value.leastInt, Value.greatestInt]
    omega
  | whole n suffix => by
    rw [Literal.value, Value.ofInt]
    split
    · rename_i hn
      exact turnable_natural hn
    · exact turnable_object _
  | decimal digits suffix => by
    rw [Literal.value]
    split
    · rename_i x hx
      exact ⟨wide_readBinary? hx, by rintro k ⟨⟩⟩
    · exact turnable_object _

mutual
/-- Every number that is read off an expression has sixty-four bits, or is described. -/
theorem Node.turnable_value (text : List Char) : ∀ n : Node, Turnable (n.value text)
  | .mk form span children => by
    have hoperand := turnable_operandValue text children
    have hoperands := turnable_operandValues text children
    simp only [Node.value]
    split
    · exact Literal.turnable _
    · split
      · rename_i n hn
        rw [hn] at hoperand
        refine ⟨hoperand.2 n rfl, ?_⟩
        rintro k ⟨⟩
        rw [neg_neg]
        exact hoperand.1
      · rename_i x hx
        rw [hx] at hoperand
        have hwide : x.Wide := hoperand.1
        exact ⟨hwide.negate, by rintro k ⟨⟩⟩
      · exact turnable_object _
    · exact hoperand
    · exact hoperand
    · exact turnable_list hoperands
    · split
      · exact ⟨trivial, by rintro k ⟨⟩⟩
      · exact ⟨trivial, by rintro k ⟨⟩⟩
    · exact turnable_list hoperands
    · exact turnable_object _

theorem turnable_operandValue (text : List Char) :
    ∀ ns : List Node, Turnable (operandValue text ns)
  | [] => ⟨trivial, by rintro k ⟨⟩⟩
  | n :: ns => by
    rw [operandValue]
    split
    · exact turnable_operandValue text ns
    · exact Node.turnable_value text n

theorem turnable_operandValues (text : List Char) :
    ∀ ns : List Node, ∀ v ∈ operandValues text ns, Turnable v
  | [] => by simp [operandValues]
  | n :: ns => by
    rw [operandValues]
    split
    · exact turnable_operandValues text ns
    · exact List.forall_mem_cons.mpr
        ⟨Node.turnable_value text n, turnable_operandValues text ns⟩
end

end Source

/-! ### Captured values -/

namespace Value

/-- A value that a program reports or that is read off an expression of a source text. -/
inductive Captured : Value → Prop
  | datum (d : Datum) : Captured d.value
  | expression (text : List Char) (n : Source.Node) : Captured (n.value text)

theorem Captured.wide (h : Captured v) : v.Wide := by
  cases h with
  | datum d => exact d.wide_value
  | expression text n => exact (n.turnable_value text).1

/-- A captured value comes back from its record, with the same variant at every place and with no more
than its floating point numbers changed, if these are finite and its lists are nested no deeper than
there is room for; any other is destroyed by its record, which is not read at all. -/
theorem captured_comes_back (h : Captured v) :
    ((v.finite = true ∧ v.depth ≤ 63) →
      ∃ w, read.runText v.toJson.render.toList = .ok w ∧ Alike v w) ∧
    (¬ (v.finite = true ∧ v.depth ≤ 63) →
      ∃ message, read.runText v.toJson.render.toList = .error message) := by
  rcases kept_or_lost v 63 h.wide with ⟨hkept, w, hw, halike⟩ | ⟨hlost, hrefused⟩
  · refine ⟨fun _ => ⟨w, hw.runText, halike⟩, fun hnot => absurd hkept hnot⟩
  · refine ⟨fun hkept => absurd hkept hlost, fun _ => hrefused.runText⟩

/-- The list of one, a half and nothing. -/
def halves : Datum := .list [.whole 1, .float .double (.finite false 1 (-1)), .nothing]

/-- The expression `[1, 1e400]`, whose second literal is rounded to infinity. -/
def hugeItems : Source.Node :=
  let span : Source.Span := ⟨⟨0, 1, 0⟩, 0⟩
  .mk .array span [.mk (.literal (.ofText "1".toList)) span [],
    .mk (.literal (.ofText "1e400".toList)) span []]

/-- One value of a program that comes back, and one of a source text that does not. -/
theorem captured_comes_back_samples :
    (∃ w, read.runText halves.value.toJson.render.toList = .ok w ∧ Alike halves.value w) ∧
    (∃ message, read.runText (hugeItems.value []).toJson.render.toList = .error message) := by
  have hkept : halves.value.finite = true ∧ halves.value.depth ≤ 63 := by decide
  have hlost : ¬ ((hugeItems.value []).finite = true ∧ (hugeItems.value []).depth ≤ 63) := by decide
  exact ⟨(captured_comes_back (.datum halves)).1 hkept,
    (captured_comes_back (.expression [] hugeItems)).2 hlost⟩

end Value

end Retrace
