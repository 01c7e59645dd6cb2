import Retrace.Proofs.Source.Order.Statements

/-! Items are read in the order of the text, but for where clauses and for attributes inside, which
come before what they belong to. -/
namespace Retrace.Source

open Source.Parser Node

/-! ### Visibility and signatures -/

instance moves_visibility : Moves visibility := .bind (h := fun given => by
  split
  · infer_instance
  · refine .bind (h := fun ts => ?_)
    split <;> infer_instance)

variable {g : Grammar} [g.Ordered]

instance laid_receiver : Laid (receiver g) where
  laid := by
    refine .after fun byReference => .when (.after fun _ => .after fun place => .after fun _ => ?_)
    refine .ite (.pure .slnil) (.after fun colon => .ite ?_ (.pure .slnil))
    exact .bind fun ty => .pure (by simp)

instance laid_parameter (start : Place) : Laid (parameter g start) where
  laid := by
    refine .bind fun received => ?_
    cases received with
    | some received => exact .pure (by simp)
    | none =>
      refine .after fun place => .after fun ts => ?_
      split
      on_goal 1 => refine .ite (.bind fun ty => .after fun _ => .pure (by simp)) ?_
      all_goals
        refine .bind fun p => .after fun _ => .after fun _ => .after fun variadic => .ite ?_ ?_
        · exact .pure (by simp)
        · exact .bind fun ty => .after fun _ => .pure (by simp)

instance laid_parametersFrom (received : Bool) (earlier fuel : Nat) :
    Laid (parametersFrom g received earlier fuel) where
  laid := by
    induction fuel generalizing received earlier with
    | zero => exact .pure .slnil
    | succ fuel ih =>
      have (received : Bool) : Laid (parametersFrom g received (earlier + 1) fuel) := ⟨ih _ _⟩
      refine .after fun ts => .ite (.pure .slnil) (.after fun start => .bind fun attributes => ?_)
      refine .after fun dots => .ite (.after fun us => .when (.pure (by simp))) ?_
      refine .bind fun ⟨declared, nodes⟩ => ?_
      cases declared with
      | variadic => exact .after fun us => .when (.pure (by simp))
      | param p =>
        refine .given (.after fun us => .ite (.pure (by simp)) (.after fun _ => ?_))
        exact .bind fun rest => .pure (by simp)
      | receiver place =>
        refine .ite .fails (.ite .fails (.after fun span => .given (.after fun us => .ite ?_ ?_)))
        · exact .pure (by simp)
        · exact .after fun _ => .bind fun rest => .pure (by simp)

/-- Where clauses stand after the parameters and the result, but are visited before them. -/
theorem lays_signature (safe : Bool) : Lays .strewn [] (signature g safe) := by
  refine .after fun start => .after fun _ => .after fun _ => .after fun risky => .after fun ts => ?_
  refine .when (.after fun _ => .after fun _ => .after fun name => .bind fun generics => ?_)
  refine .bind_of (.within (.after fun _ => Laid.lays) _) fun params => .bind fun result => ?_
  exact .bind fun predicates => .strew (by simp +contextual [or_imp])

theorem lays_routineBody (start : Place) (s : Signature) (ns : List Node) :
    Lays .row [packed ns] (routineBody g start s ns) :=
  .bind fun body => .declares rfl (by simp +contextual [or_imp])

/-! ### Parts of items -/

instance laid_boundsUntil (stop : List Token → Bool) : Laid (boundsUntil g stop) where
  laid := .bind fun bounds => .pure (by simp)

/-- Where clauses stand before or after what is declared, but are visited in one place. -/
theorem lays_typeDeclaration (defaulted : Bool) (place : WherePlace) :
    Lays .strewn [] (typeDeclaration g defaulted place) := by
  refine .after fun _ => .when (.after fun _ => .after fun _ => .bind fun parameters => ?_)
  refine .after fun bounded => ?_
  refine have h (bounds : List Node) :
      Lays .strewn ([] ++ nodes parameters ++ nodes bounds) _ := ?_
    .ite (.bind h) (.chosen h (by simp))
  refine have h (before : List Node × Bool) :
      Lays .strewn ([] ++ nodes parameters ++ nodes bounds ++ nodes before) _ := ?_
    .ite (.chosen h (by simp)) (.bind h)
  refine .after fun valued => ?_
  refine have h (value : TypeShape) :
      Lays .strewn ([] ++ nodes parameters ++ nodes bounds ++ nodes before ++ nodes value) _ := ?_
    .ite (.bind h) (.chosen h (by simp [plainType]))
  refine have h (after : List Node × Bool) :
      Lays .strewn ([] ++ nodes parameters ++ nodes bounds ++ nodes before ++ nodes value ++
        nodes after) _ := ?_
    .ite (.chosen h (by simp)) (.bind h)
  exact .after fun _ => .strew (by simp +contextual [or_imp])

instance laid_constDeclaration : Laid (constDeclaration g) where
  laid := by
    refine .after fun ts => .ite .fails (.after fun _ => .after fun generics => .after fun _ => ?_)
    refine .bind fun ty => .after fun valued => ?_
    refine have h (value : List Node) : Lays .row ([] ++ nodes ty ++ nodes value) _ := ?_
      .ite (.bind fun e => .chosen h (by simp)) (.chosen h (by simp))
    exact .after fun constrained => .after fun _ => .pure (by simp)

instance laid_itemInvocation (named : Bool) : Laid (itemInvocation g named) where
  laid := by
    refine .after fun start => .after fun p => .after fun _ => ?_
    refine have h : Lays .row [] _ := ?_
      .ite (.after fun ts => .ite (.after fun _ => h) h) h
    exact .bind fun n => .after fun s => .when (.pure (by simp))

instance laid_itemsWithin {p : Parser Node} [Laid p] : Laid (itemsWithin g p) where
  laid := .within (.bind fun attributes => .bind fun items => .pure (by simp)) _

instance laid_namedField : Laid (namedField g) where
  laid := by
    refine .bind fun attributes => .after fun _ => .after fun unnamed => .when ?_
    refine .after fun _ => .after fun ts => .ite ?_ (.bind fun ty => .pure (by simp))
    exact .after fun _ => .after fun _ => .pure (by simp)

instance laid_unnamedField : Laid (unnamedField g) where
  laid := .bind fun attributes => .after fun _ => .bind fun ty => .pure (by simp)

instance laid_namedFields : Laid (namedFields g) where
  laid := .bind fun fields => .pure (by simp)

instance laid_unnamedFields : Laid (unnamedFields g) where
  laid := .bind fun fields => .pure (by simp)

instance laid_variant : Laid (variant g) where
  laid := by
    refine .bind fun attributes => .after fun _ => .after fun _ => .after fun ts => ?_
    refine have h (fields : List Node) : Lays .row ([] ++ nodes attributes ++ nodes fields) _ := ?_
      .ite (.bind h) (.ite (.bind h) (.chosen h (by simp)))
    exact .after fun eq => .ite (.bind fun e => .pure (by simp)) (.pure (by simp))

/-! ### Kinds of items -/

theorem lays_structureBody : Lays .strewn [] (structureBody g) := by
  refine .bind fun before => .after fun ts => .ite (.bind fun fields => .bind fun after => ?_) ?_
  · exact .after fun semicolon => .ite (.strew (by simp +contextual [or_imp])) .fails
  · refine .ite (.bind fun fields => .pure (by simp)) (.after fun semicolon => ?_)
    exact .ite (.pure (by simp)) (.ite .fails .fails)

instance laid_structureItem (start : Place) : Laid (structureItem g start) where
  laid := by
    refine .after fun _ => .after fun _ => .after fun name => .bind fun parameters => ?_
    refine .bind_strewn lays_structureBody fun body => .declares rfl ?_
    simp +contextual [or_imp]

instance laid_enumeration (start : Place) : Laid (enumeration g start) where
  laid := by
    refine .after fun _ => .after fun _ => .after fun name => .bind fun parameters => ?_
    exact .bind fun predicates => .bind fun variants => .node rfl (by simp)

instance laid_unionItem (start : Place) : Laid (unionItem g start) where
  laid := by
    refine .after fun _ => .after fun _ => .after fun _ => .bind fun parameters => ?_
    exact .bind fun predicates => .bind fun fields => .node rfl (by simp)

instance laid_aliasItem (start : Place) : Laid (aliasItem g start) where
  laid := by
    refine .bind_strewn (lays_typeDeclaration _ _) fun x => .ite ?_ (.node rfl (by simp))
    exact .declares rfl (by simp +contextual)

instance moves_useTrees (roots : Bool) (fuel : Nat) : Moves (useTrees g roots fuel) := by
  induction fuel with
  | zero => exact .pure _
  | succ fuel ih =>
    refine .bind (h := fun ts => ?_)
    split
    · infer_instance
    · split <;> infer_instance

theorem moves_useTree (roots : Bool) : Moves (useTree g roots) := by
  refine .bind (h := fun ts => ?_)
  split
  · refine .bind (h := fun _ => .bind (h := fun further => ?_))
    split <;> infer_instance
  · infer_instance

instance laid_useItem (start : Place) : Laid (useItem g start) where
  laid := by
    refine .after fun _ => .after fun _ => .after fun rooted => .after fun plain => ?_
    exact .after fun _ => .node (by split <;> rfl) .slnil

omit [g.Ordered] in
instance laid_externCrate (start : Place) : Laid (externCrate start) where
  laid := by
    refine .after fun _ => .after fun _ => .after fun _ => .after fun ts => .either fun name => ?_
    refine .after fun as' => ?_
    refine have h : Lays .row [] _ := ?_
      .ite (.after fun unnamed => .ite (.after fun _ => h) h) h
    exact .after fun _ => .node rfl .slnil

instance laid_foreignItem : Laid (foreignItem g) where
  laid := by
    refine .attributed fun start attributes => .after fun ⟨isPublic, s⟩ => ?_
    refine have h (n : Node) : Lays .row ([] ++ led start attributes ++ [n]) _ := ?_
      .ite ?_ (.ite ?_ (.ite ?_ (.ite (.bind h) .fails)))
    · exact .attach (.pure (by simp))
    · refine .after fun _ => .bind_strewn (lays_signature true) fun x => .after fun ts => .ite ?_ ?_
      · exact .after fun _ => .beyond (.node rfl (by simp)) h
      · refine .after fun _ => .ite (.beyond (.node rfl (by simp)) h) (.beyond (.declares rfl ?_) h)
        simp +contextual
    · refine .after fun _ => .after fun _ => .after fun _ => .after fun _ => .after fun _ => ?_
      refine .after fun _ => .bind fun ty => .after fun valued => .when (.after fun _ => .ite ?_ ?_)
      · exact .beyond (.node rfl (by simp)) h
      · exact .beyond (.node rfl (by simp)) h
    · refine .bind_strewn (lays_typeDeclaration _ _) fun x => .ite ?_ ?_
      · exact .beyond (.node rfl (by simp)) h
      · exact .beyond (.declares rfl (by simp +contextual)) h

instance laid_foreignBlock (start : Place) : Laid (foreignBlock g start) where
  laid := .after fun _ => .after fun _ => .bind fun ⟨attributes, items⟩ => .node rfl (by simp)

instance laid_moduleItem (start : Place) : Laid (moduleItem g start) where
  laid := by
    refine .after fun _ => .after fun _ => .after fun _ => .after fun ts => .either fun name => ?_
    refine .after fun semicolon => .ite (.node rfl .slnil) (.after fun us => .ite .fails ?_)
    exact .bind fun ⟨attributes, items⟩ => .node rfl (by simp)

instance laid_traitItem : Laid (traitItem g) where
  laid := by
    refine .attributed fun start attributes => .after fun isPublic => .after fun defaulted => ?_
    refine .after fun ts => ?_
    refine have h (n : Node) : Lays .row ([] ++ led start attributes ++ [n]) _ := ?_
      .ite (.bind_of ?routine h) (.ite (.ite ?const (.ite (.bind_of ?routine h) .fails))
        (.ite ?_ (.ite (.bind h) .fails)))
    · exact .ite (.attach (.pure (by simp))) (.node rfl (by simp))
    case routine =>
      refine .after fun begin' => .bind_strewn (lays_signature false) fun x => .after fun ts => ?_
      refine .ite (by simpa using lays_routineBody _ _ _) (.after fun semicolon => .ite ?_ .fails)
      exact .declares rfl (by simp +contextual)
    case const =>
      refine .after fun _ => .bind fun x => .ite (.node rfl (by simp)) ?_
      exact .beyond (.node rfl (by simp)) h
    · refine .bind_strewn (lays_typeDeclaration _ _) fun x => .beyond (.declares rfl ?_) h
      simp +contextual

theorem lays_traitBody (start : Place) (name : Name) (parameters : List Node) :
    Lays .row parameters (traitBody g start name parameters) := by
  refine .after fun colon => ?_
  refine have h (bounds : List Node) : Lays .row (parameters ++ nodes bounds) _ := ?_
    .ite (.bind h) (.chosen h (by simp))
  refine .bind fun predicates => .bind fun ⟨attributes, items⟩ => .declares rfl ?_
  simp +contextual [or_imp]

instance laid_markedTrait (start : Place) : Laid (markedTrait g start) where
  laid := by
    refine .after fun _ => .after fun _ => .after fun _ => .after fun _ => .after fun name => ?_
    exact .bind fun parameters => (lays_traitBody _ _ _).mono (by simp)

instance laid_traitOrAlias (start : Place) : Laid (traitOrAlias g start) where
  laid := by
    refine .after fun _ => .after fun _ => .after fun name => .bind fun parameters => ?_
    refine .after fun ts => .ite ((lays_traitBody _ _ _).mono (by simp)) (.after fun eq => ?_)
    refine .ite (.bind fun bounds => .bind fun predicates => .after fun _ => ?_) .fails
    exact .declares rfl (by simp +contextual [or_imp])

instance laid_implementationItem : Laid (implementationItem g) where
  laid := by
    refine .attributed fun start attributes => .after fun ⟨isPublic, s⟩ => ?_
    refine have h (n : Node) : Lays .row ([] ++ led start attributes ++ [n]) _ := ?_
      .ite ?_ (.ite ?_ (.ite ?_ (.ite (.bind h) .fails)))
    · exact .ite (.pure (by simp)) (.attach (.pure (by simp)))
    · refine .after fun _ => .after fun _ => .after fun _ => ?_
      refine .bind_strewn (lays_signature false) fun x => ?_
      refine .after fun semicolon => .ite (.beyond (.node rfl (by simp)) h) (.beyond ?_ h)
      simpa using lays_routineBody _ _ _
    · refine .after fun _ => .after fun _ => .after fun _ => .bind fun x => .ite ?_ ?_
      · exact .beyond (.node rfl (by simp)) h
      · exact .beyond (.node rfl (by simp)) h
    · refine .bind_strewn (lays_typeDeclaration _ _) fun x => .ite ?_ ?_
      · exact .beyond (.declares rfl (by simp +contextual)) h
      · exact .beyond (.node rfl (by simp)) h

instance laid_implementation (start : Place) : Laid (implementation g start) where
  laid := by
    refine .after fun isPublic => .after fun _ => .after fun _ => .after fun _ => ?_
    refine .after fun ts => ?_
    refine have h (parameters : List Node) : Lays .row ([] ++ nodes parameters) _ := ?_
      .ite (.bind fun x => .chosen h (by simp)) (.chosen h (by simp))
    refine .after fun us => ?_
    refine have h : Lays .row ([] ++ nodes parameters) _ := ?_
      .ite (.after fun _ => .after fun _ => h) h
    refine .after fun us => .when (.bind fun first => .after fun ofTrait => ?_)
    refine .ite (.bind fun self => ?_) (.given ?_)
    all_goals
      refine .bind fun predicates => .bind fun ⟨attributes, items⟩ => .ite (.node rfl (by simp)) ?_
      refine .declares (by split <;> rfl) ?_
      split
      · simp +contextual [or_imp]
      · split <;> simp +contextual [or_imp]

omit [g.Ordered] in
instance laid_macroDefinition (start : Place) : Laid (macroDefinition start) where
  laid := by
    refine .after fun _ => .after fun _ => .after fun _ => .after fun first => .when ?_
    exact .after fun ts => .ite (.after fun _ => .node rfl .slnil) .fails

instance laid_staticItem (start : Place) : Laid (staticItem g start) where
  laid := by
    refine .after fun _ => .after fun _ => .after fun _ => .after fun _ => .after fun eq => ?_
    refine .ite (.after fun _ => .after fun _ => .node rfl .slnil) (.after fun _ => ?_)
    refine .bind fun ty => .after fun bare => .ite (.node rfl (by simp)) (.after fun _ => ?_)
    exact .bind fun value => .after fun _ => .node rfl (by simp)

instance laid_bareItem : Laid (bareItem g) where
  laid := by
    refine .after fun start => .after fun ⟨isPublic, s⟩ => .ite ?_ (.ite ?_ (.ite Laid.lays ?_))
    · refine .after fun _ => .bind_strewn (lays_signature false) fun x => .after fun semicolon => ?_
      exact .ite (.node rfl (by simp)) (by simpa using lays_routineBody _ _ _)
    · exact .ite Laid.lays (.ite Laid.lays (.ite (.ite Laid.lays .fails) .fails))
    refine .ite Laid.lays (.ite ?_ (.ite ?_ (.ite Laid.lays (.ite Laid.lays (.ite Laid.lays ?_)))))
    · refine .after fun _ => .after fun _ => .bind fun x => .ite ?_ ?_
      · exact .node rfl (by simp)
      · exact .node rfl (by simp)
    · exact .ite Laid.lays (.ite Laid.lays (.ite Laid.lays (.ite Laid.lays .fails)))
    refine .ite Laid.lays (.ite Laid.lays (.ite Laid.lays (.ite Laid.lays (.ite Laid.lays ?_))))
    exact .ite Laid.lays (.ite Laid.lays .fails)

theorem laid_item : Laid (item g) where
  laid := by
    refine .attributed fun start attributes => .bind fun n => .ite (.pure (by simp)) ?_
    exact .attach (.pure (by simp))

end Retrace.Source
