import Retrace.Proofs.Source.Order.Expressions

/-! Operands, with the operators before them and what follows them, are read in the order of the
text. -/
namespace Retrace.Source

open Source.Parser Node

variable {g : Grammar} [g.Ordered]

/-! ### Closures and structures -/

instance laid_closureParam : Laid (closureParam g) where
  laid := by
    refine .bind fun attributes => .bind fun p => .after fun colon => .ite ?_ (.pure (by simp))
    exact .bind fun ty => .pure (by simp)

omit [g.Ordered] in
/-- Keywords that may be left out. -/
instance moves_keywords (keywords : List String) :
    Moves (forIn keywords PUnit.unit fun keyword _ => do
      let _ ← takes keyword
      pure (ForInStep.yield PUnit.unit)) := by
  induction keywords with
  | nil => exact .pure _
  | cons keyword keywords ih =>
    rw [List.forIn_cons]
    simp only [bind_assoc, pure_bind]
    exact .bind

instance laid_closure (structs : Bool) : Laid (closure g structs) where
  laid := by
    refine .after fun start => .bind fun lifetimes => .after fun _ => .after fun _ => ?_
    refine .bind fun params => .after fun _ => .after fun arrow => .ite ?_ ?_
    · exact .bind fun ty => .bind fun body => .given (.node rfl (by simp))
    · exact .bind fun e => .given (.node rfl (by simp))

instance laid_fieldValue : Laid (fieldValue g) where
  laid := by
    refine .bind fun attributes => .marked fun start => .after fun field => ?_
    cases field with
    | none => exact .after fun _ => .bind fun e => .pure (by simp)
    | some name =>
      refine .beyond (.path (.refl _)) fun self => .after fun colon => .ite ?_ (.pure (by simp))
      exact .bind fun e => .pure (by simp)

instance laid_fieldValues (fuel : Nat) : Laid (fieldValues g fuel) where
  laid := by
    induction fuel with
    | zero => exact .pure .slnil
    | succ fuel ih =>
      have : Laid (fieldValues g fuel) := ⟨ih⟩
      refine .after fun ts => .ite (.pure .slnil) (.after fun dots => .ite (.after fun us => ?_) ?_)
      · exact .ite (.pure .slnil) (.bind fun e => .pure (by simp))
      · refine .bind fun field => .after fun us => .ite (.pure (by simp)) (.after fun _ => ?_)
        exact .bind fun fields => .pure (by simp)

instance laid_pathExpression (structs : Bool) : Laid (pathExpression g structs) where
  laid := by
    refine .marked fun start => .bind fun p => .after fun ts => .ite Laid.lays (.ite ?_ ?_)
    · exact .bind_of (.within (.after fun _ => Laid.lays) _) fun fields => .node rfl (by simp)
    · exact .path (by simp)

/-! ### Tuples and arrays -/

instance laid_furtherElements (fuel : Nat) : Laid (furtherElements g fuel) where
  laid := by
    induction fuel with
    | zero => exact .pure .slnil
    | succ fuel ih =>
      have : Laid (furtherElements g fuel) := ⟨ih⟩
      refine .after fun ts => .ite (.pure .slnil) (.after fun _ => .after fun us => ?_)
      exact .ite (.pure .slnil) (.bind fun e => .bind fun es => .pure (by simp))

instance laid_parenthesizedOrTuple : Laid (parenthesizedOrTuple g) where
  laid := by
    refine .after fun start => .bind_knowing (Q := fun x => x.1.plain = true) (.within ?_ _)
      (.within ?_ _) fun ⟨form, elements⟩ h => .node h (by simp)
    · refine .after fun ts => .ite (.pure .slnil) (.bind fun first => .after fun us => ?_)
      exact .ite (.pure (by simp)) (.after fun fuel => .bind fun es => .pure (by simp))
    · refine .after fun ts => .ite (.pure rfl) (.after fun first => .after fun us => ?_)
      exact .ite (.pure rfl) (.after fun _ => .after fun es => .pure rfl)

instance laid_array : Laid (array g) where
  laid := by
    refine .after fun start => .bind_knowing (Q := fun x => x.1.plain = true) (.within ?_ _)
      (.within ?_ _) fun ⟨form, elements⟩ h => .node h (by simp)
    · refine .after fun ts => .ite (.pure .slnil) (.bind fun first => .after fun us => .ite ?_ ?_)
      · exact .after fun fuel => .bind fun es => .pure (by simp)
      · exact .after fun semicolon => .ite (.bind fun length => .pure (by simp)) .fails
    · refine .after fun ts => .ite (.pure rfl) (.after fun first => .after fun us => .ite ?_ ?_)
      · exact .after fun _ => .after fun es => .pure rfl
      · exact .after fun semicolon => .ite (.after fun length => .pure rfl) (.fail _)

/-! ### Keywords -/

instance laid_valueIfAny : Laid (valueIfAny g) where
  laid := .after fun _ => .ite (.bind fun e => .pure (by simp)) (.pure .slnil)

instance laid_leave (structs : Bool) : Laid (leave g structs) where
  laid := by
    refine .after fun start => .after fun _ => .after fun ts => ?_
    refine have h : Lays .row [] _ := ?_
      .ite (.after fun place => .ite (.after fun _ => .fails) (.after fun _ => h)) h
    refine .after fun us => .ite ?_ (.given (.node rfl .slnil))
    exact .bind fun e => .given (.node rfl (by simp))

instance laid_letCondition (structs : Bool) : Laid (letCondition g structs) where
  laid := by
    refine .after fun start => .after fun _ => .bind fun p => .after fun _ => .bind fun left => ?_
    exact .beyond (lays_climb structs _ left) fun value => .node rfl (by simp)

omit [g.Ordered] in
instance laid_builtin : Laid builtin where
  laid := .after fun _ => .after fun _ => .after fun _ => .after fun _ => .after fun _ =>
    .node rfl (by simp)

instance laid_atom (structs : Bool) : Laid (atom g structs) where
  laid := by
    refine .after fun start => .after fun ts => .ite ?_ (.ite ?_ (.ite ?_ (.ite Laid.lays ?_)))
    · exact .after fun l => .node rfl .slnil
    · exact .after fun _ => .after fun _ => .bind fun body => .node rfl (by simp)
    · exact .after fun _ => .bind fun body => .node rfl (by simp)
    refine .ite Laid.lays (.ite Laid.lays (.ite Laid.lays (.ite Laid.lays ?_)))
    refine .after fun continue' => .ite (.after fun _ => .node rfl .slnil) (.after fun return' => .ite ?_ ?_)
    · exact .bind fun value => .node rfl (by simp)
    refine .after fun become => .ite (.after fun _ => .node rfl .slnil) ?_
    refine .ite Laid.lays (.ite Laid.lays (.ite Laid.lays (.ite Laid.lays (.ite Laid.lays ?_))))
    refine .ite Laid.lays (.ite Laid.lays (.after fun yield' => .ite ?_ ?_))
    · exact .bind fun value => .node rfl (by simp)
    refine .after fun unsafe' => .ite Laid.lays (.after fun const => .ite Laid.lays ?_)
    refine .ite Laid.lays (.ite (.bind fun upper => .node rfl (by simp)) (.after fun blank => ?_))
    exact .ite (.node rfl .slnil) (.ite Laid.lays .fails)

theorem laid_unary (structs : Bool) : Laid (unary g structs) where
  laid := by
    refine .attributed fun start attributes => .after fun ts => .after fun reference => .ite ?_ ?_
    · refine .after fun us => .when (.after fun mut' => .when (.bind fun e => .node ?_ (by simp)))
      split <;> rfl
    · refine .after fun operator => .ite (.bind fun e => .node ?_ (by simp)) (.bind fun e => ?_)
      · split <;> rfl
      · refine .beyond (lays_trailers e) fun e => .attach ?_
        split
        · exact .pure (by simp [withAttributes, *])
        · exact .ite .fails (.pure (by simp [withAttributes, *]))

end Retrace.Source
