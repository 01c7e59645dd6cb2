import Retrace.Proofs.Source.Order.Paths

/-! Types, their bounds and generic parameters are read in the order of the text. -/
namespace Retrace.Source

open Source.Parser Node

variable {g : Grammar} [g.Ordered]

/-! ### Generic parameters -/

instance laid_parameterBounds (stop : List String) : Laid (parameterBounds g stop) where
  laid := .bind fun bounds => .pure (by simp)

omit [g.Ordered] in
instance laid_lifetimeParameter : Laid lifetimeParameter where
  laid := .after fun _ => .after fun _ => .when (.pure .slnil)

instance laid_typeParameter : Laid (typeParameter g) where
  laid := by
    refine .after fun _ => .after fun colon => .ite (.bind fun bounds => ?_) (.given ?_)
    · exact .after fun eq => .ite (.bind fun ty => .pure (by simp)) (.pure (by simp))
    · exact .after fun eq => .ite (.bind fun ty => .pure (by simp)) (.pure (by simp))

instance laid_constParameter : Laid (constParameter g) where
  laid := by
    refine .after fun _ => .after fun _ => .after fun _ => .bind fun ty => .after fun eq => ?_
    exact .ite (.bind fun c => .pure (by simp)) (.pure (by simp))

instance laid_binderParameter : Laid (binderParameter g) where
  laid := by
    refine .bind fun attributes => .after fun ts => .ite ?_ (.ite ?_ (.ite ?_ .fails))
    all_goals exact .bind fun p => .pure (by simp)

instance laid_genericParameter : Laid (genericParameter g) where
  laid := by
    refine .bind fun attributes => .after fun ts => .ite ?_ (.ite ?_ (.ite ?_ ?_))
    · exact .bind fun p => .pure (by simp)
    · exact .bind fun p => .pure (by simp)
    · exact .bind fun p => .pure (by simp)
    · exact .after fun unnamed => .ite (.pure (by simp)) .fails

instance laid_binder : Laid (binder g) where
  laid := .after fun _ => .after fun _ => .bind fun ps => .after fun _ => .pure (by simp)

instance laid_binderIfAny : Laid (binderIfAny g) where
  laid := .after fun _ => .ite Laid.lays (.pure .slnil)

instance laid_generics : Laid (generics g) where
  laid := by
    refine .after fun opened => .ite (.pure .slnil) ?_
    exact .bind fun ps => .after fun _ => .pure (by simp)

instance laid_wherePredicate : Laid (wherePredicate g) where
  laid := by
    refine .after fun ts => .ite ?_ (.bind fun lifetimes => .bind fun ty => ?_)
    · exact .after fun _ => .after fun _ => .after fun _ => .pure .slnil
    · exact .after fun _ => .bind fun bounds => .pure (by simp)

instance laid_whereClause : Laid (whereClause g) where
  laid := by
    refine .after fun where' => .ite (.pure .slnil) (.after fun ts => .ite .fails ?_)
    exact .bind fun predicates => .pure (by simp)

/-! ### Bounds -/

omit [g.Ordered] in
instance moves_capturedFrom (fuel : Nat) : Moves (capturedFrom fuel) := by
  induction fuel with
  | zero => exact .pure _
  | succ fuel ih =>
    unfold capturedFrom
    refine .bind (h := fun ts => ?_)
    split
    · infer_instance
    · split <;> infer_instance

instance laid_traitBound (rules : BoundRules) : Laid (traitBound g rules) where
  laid := by
    refine .bind fun first => .after fun start => .after fun ts => ?_
    refine have h : Lays .row (nodes first) _ := ?_; .ite (.after fun _ => h) (.when h)
    refine .ite .fails (.after fun modifier => .after fun maybe => .after fun us => ?_)
    refine have h (lifetimes : List Node) : Lays .row lifetimes _ := ?_
      .ite (.bind fun lifetimes => .mono (h lifetimes) (by simp))
        (.given (.mono (h first) (by simp)))
    refine .bind fun p => .after fun vs => .ite ?_ (.given (.ite .fails (.pure ?_)))
    · refine .after fun _ => .bind fun ⟨args, _⟩ => .given (.ite .fails (.pure ?_))
      split <;> simp
    · split <;> simp

instance laid_bound (rules : BoundRules) : Laid (bound g rules) where
  laid := by
    refine .after fun ts => .ite ?_ (.ite ?_ ?_)
    · exact .after fun _ => .pure .slnil
    · refine .after fun start => .after fun _ => .after fun _ => .after fun n => .after fun _ => ?_
      exact .after fun _ => .ite .fails (.pure .slnil)
    · exact .branch fun nodes => .pure (by simp)

instance laid_boundsFrom (rules : BoundRules) (more : List Token → Bool) (plus : Bool)
    (fuel : Nat) : Laid (boundsFrom g rules more plus fuel) where
  laid := by
    induction fuel with
    | zero => exact .pure .slnil
    | succ fuel ih =>
      have : Laid (boundsFrom g rules more plus fuel) := ⟨ih⟩
      refine .bind fun b => .after fun ts => .ite ?_ (.pure (by simp))
      refine .after fun _ => .after fun us => .ite ?_ (.pure (by simp))
      exact .bind fun bs => .pure (by simp)

instance laid_bounds (rules : BoundRules) (plus : Bool) : Laid (bounds g rules plus) where
  laid := .after fun _ => Laid.lays

instance laid_objectBounds (start : Place) (plus : Bool) : Laid (objectBounds g start plus) where
  laid := .bind fun bs => .ite .fails (.pure (by simp))

instance laid_plusBounds : Laid (plusBounds g) :=
  have : Laid (do take "+"; g.bound ⟨false, false⟩) := ⟨.after fun _ => Laid.lays⟩
  .many _

/-! ### Types -/

instance laid_enclosedType : Laid (enclosedType g) where
  laid := by
    refine .after fun ts => .ite (.pure .slnil) (.ite ?_ (.ite ?_ ?_))
    · exact .after fun start => .bind fun bs => .pure (by simp)
    · exact .bind fun ns => .pure (by simp [plainType])
    · refine .bind fun first => .after fun comma => .ite ?_ (.pure (by simp))
      exact .bind fun others => .pure (by simp [plainType])

instance laid_parenthesizedType (plus : Bool) : Laid (parenthesizedType g plus) where
  laid := by
    refine .bind fun ⟨inner, content⟩ => ?_
    cases content with
    | whole => exact .pure (by simp)
    | relaxedBound => exact .bind fun bs => .pure (by simp [objectFrom])
    | type =>
      exact .after fun ts => .ite (.bind fun bs => .pure (by simp [objectFrom])) (.pure (by simp))

instance laid_functionTypeParam (first : Bool) : Laid (functionTypeParam g first) where
  laid := by
    refine .after fun ts => .when (.after fun us => .ite ?_ ?_)
    · refine .after fun _ => .after fun _ => .bind fun ty => .pure ?_
      split <;> simp
    · exact .ite (.after fun _ => .pure .slnil) (.bind fun ty => .pure (by simp))

instance laid_functionTypeParams (first : Bool) (fuel : Nat) :
    Laid (functionTypeParams g first fuel) where
  laid := by
    induction fuel generalizing first with
    | zero => exact .pure .slnil
    | succ fuel ih =>
      have : Laid (functionTypeParams g false fuel) := ⟨ih false⟩
      refine .after fun ts => .ite (.pure .slnil) (.bind fun attributes => .after fun us => ?_)
      refine .ite ?_ (.bind fun p => .after fun vs => .ite (.pure (by simp)) ?_)
      · refine have h : Lays .row ([] ++ nodes attributes) _ := ?_
          .ite (.after fun _ => .after fun _ => h) h
        exact .after fun _ => .after fun _ => .pure (by simp)
      · exact .after fun _ => .bind fun ps => .pure (by simp)

omit [g.Ordered] in
instance moves_linkage : Moves linkage := by
  unfold linkage
  infer_instance

omit [g.Ordered] in
instance moves_convention : Moves convention := .bind

instance laid_resultType (plus : Bool) : Laid (resultType g plus) where
  laid := .after fun arrow => .ite (.bind fun ty => .pure (by simp)) (.pure .slnil)

instance laid_functionType : Laid (functionType g) where
  laid := by
    refine .after fun _ => .after fun _ => .after fun _ => .bind_of (.within ?_ _) fun params => ?_
    · exact .after fun _ => Laid.lays
    · exact .bind fun result => .pure (by simp [plainType])

theorem lays_typeArguments (fuel : Nat) (p : Path) :
    Lays .row p.nodes (typeArguments g fuel p) := by
  induction fuel generalizing p with
  | zero => exact .pure (by simp)
  | succ fuel ih =>
    refine .after fun ts => .ite (.after fun _ => ?_) (.pure (by simp))
    refine .bind fun ⟨args, extendable⟩ => .ite (.bind fun rest => (ih _).mono ?_) (.pure ?_)
    · simp [Path.extend]
    · simp

instance laid_typePath : Laid (typePath g) where
  laid := .after fun fuel => .bind fun p => lays_typeArguments fuel p

theorem lays_pathType (plus : Bool) (lifetimes : Option (List Node)) :
    Lays .row (lifetimes.getD []) (pathType g plus lifetimes) := by
  refine .after fun start => .bind fun p => .ite (.pure (by simp)) (.after fun ts => .ite ?_ ?_)
  · exact .bind fun n => .pure (by simp [plainType])
  · refine .ite (.pure (by simp)) (.ite (.pure (by simp [objectFrom])) ?_)
    refine .after fun _ => .after fun us => .ite (.pure (by simp)) (.after fun n => ?_)
    exact .bind fun bs => .pure (by simp [objectFrom])

theorem laid_type (plus : Bool) : Laid (type g plus) where
  laid := by
    refine .after fun start => .after fun ts => ?_
    refine have h (lifetimes : Option (List Node)) : Lays .row (lifetimes.getD []) _ := ?_
      .ite (.bind fun lifetimes => .after fun us => .ite .fails (.chosen h (by simp)))
        (.chosen h (by simp))
    refine .after fun us => .ite Laid.lays
      (.ite ?_ (.ite (lays_pathType plus _) (.ite ?_ (.ite ?_ ?_))))
    · exact .bind fun f => .pure (by simp)
    · refine .after fun _ => .after fun starred => .bind fun bs => .pure ?_
      split <;> simp [plainType]
    · refine .mono (.within (.bind fun elem => .after fun semicolon => ?_) _) (List.nil_sublist _)
      exact .ite (.bind fun length => .pure (by simp [plainType])) (.pure (by simp [plainType]))
    · refine .ite ?_ (.ite ?_ (.ite ?_ (.ite ?_ (.ite ?_ (.ite ?_ .fails)))))
      · exact .after fun _ => .after fun _ => .ite .fails (.bind fun ty =>
          .pure (by simp [plainType]))
      · exact .after fun _ => .after fun _ => .after fun _ => .bind fun ty =>
          .pure (by simp [plainType])
      · exact .after fun _ => .pure (by simp [plainType])
      · exact .after fun _ => .bind fun bs => .ite .fails (.pure (by simp [plainType]))
      · exact .after fun _ => .pure (by simp [plainType])
      · exact .bind fun bs => .pure (by simp)

end Retrace.Source
