import Retrace.Proofs.Source.Order.Patterns

/-! Expressions are read in the order of the text, but for the attributes inside the body of a loop
or a choice, which come before what the body depends on. -/
namespace Retrace.Source

open Source.Parser Node

variable {g : Grammar} [g.Ordered]

/-! ### Operators -/

theorem lays_operandFrom (structs : Bool) (p : Precedence) (fuel : Nat) (right : Node) :
    Lays .row [right] (operandFrom g structs p fuel right) := by
  induction fuel generalizing right with
  | zero => exact .pure (by simp)
  | succ fuel ih =>
    refine .after fun ts => .ite ?_ (.pure (by simp))
    refine .through (Grammar.Ordered.climb structs _ right) fun right => .after fun us => ?_
    exact .ite (.pure (by simp)) (ih right)

instance laid_operand (structs : Bool) (p : Precedence) : Laid (operand g structs p) where
  laid := .bind fun right => .after fun fuel => lays_operandFrom structs p fuel right

instance laid_rangeEnd (structs : Bool) : Laid (rangeEnd g structs) where
  laid := .after fun closed => .after fun ts => .ite (.pure .slnil) (.bind fun e => .pure (by simp))

omit [g.Ordered] in
instance moves_checkCast : Moves checkCast := by
  unfold checkCast
  infer_instance

theorem lays_climbFrom (structs : Bool) (base : Precedence) (fuel : Nat) (left : Node) :
    Lays .row [left] (climbFrom g structs base fuel left) := by
  induction fuel generalizing left with
  | zero => exact .pure (by simp)
  | succ fuel ih =>
    refine .ite (.pure (by simp)) (.after fun ts => ?_)
    split
    · refine .ite (.pure (by simp)) (.ite .fails (.after fun _ => .bind fun right => ?_))
      refine .through (.node ?_ (by simp)) ih
      split <;> rfl
    · refine .ite ?_ (.ite ?_ (.ite ?_ (.pure (by simp))))
      · exact .after fun _ => .bind fun right => .through (.node rfl (by simp)) ih
      · exact .bind fun upper => .through (.node rfl (by simp)) ih
      · exact .after fun _ => .bind fun ty => .after fun _ => .through (.node rfl (by simp)) ih

theorem lays_climb (structs : Bool) (base : Precedence) (left : Node) :
    Lays .row [left] (climb g structs base left) :=
  .after fun fuel => lays_climbFrom structs base fuel left

theorem laid_expression (structs : Bool) : Laid (expression g structs) where
  laid := .bind fun left => lays_climb structs .least left

/-! ### What follows an operand -/

instance laid_callArguments : Laid (callArguments g) := .within _

theorem lays_selected (e : Node) : Lays .row [e] (selected g e) := by
  refine .after fun await => .ite (.node rfl (by simp)) ?_
  refine .marked fun place => .after fun field => ?_
  cases field with
  | none => exact .node rfl (by simp)
  | some name =>
    -- The mark keeps the line of the name until the arguments have been read.
    refine have h (turbofish : Option (List Node)) :
        Lays .row ([e] ++ [marker place] ++ nodes turbofish) _ := ?_
      .after fun ts => .ite (.bind fun args => .chosen h (by simp)) (.chosen h (by simp))
    refine .after fun us => .ite (.bind fun args => ?_) (.node rfl (by simp))
    rw [List.cons_append]
    exact .method (by cases turbofish <;> simp)

theorem lays_trailersFrom (fuel : Nat) (e : Node) : Lays .row [e] (trailersFrom g fuel e) := by
  induction fuel generalizing e with
  | zero => exact .pure (by simp)
  | succ fuel ih =>
    refine .after fun ts => .ite ?_ (.ite ?_ (.ite ?_ (.ite ?_ (.pure (by simp)))))
    · exact .bind fun args => .through (.call e (by simp)) ih
    · refine .after fun _ => .ahead_bind fun us => ?_
      split
      -- A decimal number is taken for two places, with a dot between them.
      · split
        · exact .of_lays .fails
        · refine .goOn_bind (decimalAhead?_suffix ‹_›) (.through (.node rfl (by simp)) fun e => ?_)
          exact .ite (.through (lays_selected e) ih) (.given (ih e))
      · exact .of_lays (.through (lays_selected e) ih)
    · exact .bind fun index => .through (.node rfl (by simp)) ih
    · exact .after fun _ => .through (.node rfl (by simp)) ih

theorem lays_trailers (e : Node) : Lays .row [e] (trailers g e) :=
  .after fun fuel => lays_trailersFrom fuel e

/-! ### Expressions with a body -/

omit [g.Ordered] in
theorem answers_attributedBody :
    Answers (attributedBody g) fun x => ∀ a ∈ x.1, a.isAttribute = true := by
  refine .after fun start => .bind (Q := fun x => ∀ a ∈ x.1, a.isAttribute = true) (.within ?_ _)
    fun ⟨attributes, statements⟩ h => .after fun body => .pure h
  exact .bind answers_innerAttributes_isAttribute fun attributes h => .after fun _ => .pure h

instance laid_branchFrom (fuel : Nat) : Laid (branchFrom g fuel) where
  laid := by
    induction fuel with
    | zero => exact Lays.fails (p := fail _)
    | succ fuel ih =>
      have : Laid (branchFrom g fuel) := ⟨ih⟩
      refine .after fun start => .after fun _ => .bind fun condition => .after fun ts => ?_
      refine .bind fun body => .after fun else' => .ite (.node rfl (by simp)) (.after fun us => ?_)
      refine .ite (.bind fun otherwise => .node rfl (by simp)) (.ite ?_ .fails)
      exact .bind fun otherwise => .node rfl (by simp)

instance laid_branch : Laid (branch g) where
  laid := .after fun _ => Laid.lays

instance laid_forLoop (start : Place) : Laid (forLoop g start) where
  laid := by
    refine .after fun _ => .bind fun p => .after fun _ => .bind fun subject => ?_
    refine .bind_knowing Laid.laid answers_attributedBody fun ⟨attributes, body⟩ hattributes => ?_
    exact .encloses (p.nodes ++ [subject, body]) rfl hattributes (by simp) (by simp +contextual)
      (by simp)

instance laid_whileLoop (start : Place) : Laid (whileLoop g start) where
  laid := by
    refine .after fun _ => .bind fun condition => ?_
    refine .bind_knowing Laid.laid answers_attributedBody fun ⟨attributes, body⟩ hattributes => ?_
    exact .encloses [condition, body] rfl hattributes rfl (by simp +contextual) (by simp)

instance laid_endlessLoop (start : Place) : Laid (endlessLoop g start) where
  laid := .after fun _ => .bind fun ⟨attributes, body⟩ => .node rfl (by simp)

instance laid_keywordBlock (start : Place) : Laid (keywordBlock g start) where
  laid := .bind fun ⟨attributes, body⟩ => .node rfl (by simp)

instance laid_labelled : Laid (labelled g) where
  laid := by
    refine .after fun start => .after fun _ => .after fun _ => .after fun ts => ?_
    exact .ite Laid.lays (.ite Laid.lays (.ite Laid.lays (.ite Laid.lays .fails)))

instance laid_arm : Laid (arm g) where
  laid := by
    refine .bind fun attributes => .bind fun p => .after fun if' => ?_
    refine have h (guard : List Node) :
        Lays .row ([] ++ nodes attributes ++ nodes p ++ nodes guard) _ := ?_
      .ite (.bind fun e => .chosen h (by simp)) (.chosen h (by simp))
    refine .after fun _ => .bind fun body => .after fun ts => .ite ?_ ?_
    · exact .after fun _ => .pure (by simp)
    · exact .after fun _ => .pure (by simp)

instance laid_matching : Laid (matching g) where
  laid := by
    refine .after fun start => .after fun _ => .bind fun subject => .bind_knowing
      (Q := fun x => ∀ a ∈ x.1, a.isAttribute = true) (.within ?_ _) (.within ?_ _)
      fun ⟨attributes, arms⟩ h => ?_
    · exact .bind fun _ => .bind fun _ => .pure (by simp)
    · exact .bind answers_innerAttributes_isAttribute fun attributes h => .after fun _ => .pure h
    · exact .encloses (subject :: arms.flatten) rfl h rfl (by simp +contextual) (by simp)

theorem laid_earlyExpression : Laid (earlyExpression g) where
  laid := by
    refine .attributed fun start attributes => .after fun place => .after fun ts => ?_
    refine have h (e : Node) : Lays .row ([] ++ led start attributes ++ [e]) _ := ?_
      .ite (.bind h) (.ite (.bind h) (.ite (.bind h) (.ite (.bind h) (.ite (.bind h) (.ite ?_
        (.ite ?_ (.ite ?_ (.ite (.bind h) (.ite (.bind h) (.bind h))))))))))
    -- What an invocation starts gets the attributes before the operators after it are read.
    · refine .ite (.attach (lays_climb _ _ _)) (.after fun us => .ite ?_ (.attach (.pure ?_)))
      · exact .beyond (lays_trailers e) fun e => .attach (lays_climb _ _ _)
      · exact .refl _
    · exact .after fun _ => .bind fun b => .beyond (.node rfl (by simp)) h
    · exact .after fun _ => .bind h
    · exact .after fun _ => .bind h

end Retrace.Source
