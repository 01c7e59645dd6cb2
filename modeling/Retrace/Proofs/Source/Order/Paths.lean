import Retrace.Proofs.Source.Order.Laying

/-! Paths, attributes and generic arguments are read in the order of the text. -/
namespace Retrace.Source

open Source.Parser Node

variable {g : Grammar}

/-! ### Plain paths -/

instance moves_plainSegments (fuel : Nat) : Moves (plainSegments fuel) := by
  induction fuel with
  | zero => exact .pure _
  | succ fuel ih =>
    unfold plainSegments
    infer_instance

instance moves_plainPath : Moves plainPath := by
  unfold plainPath
  infer_instance

variable [g.Ordered]

/-! ### Attributes -/

instance laid_attributeBody : Laid (attributeBody g) where
  laid := by
    refine .after fun unsafe' => .when (.after fun ts => ?_)
    split
    · exact .after fun _ => .pure .slnil
    · refine .ite (.after fun _ => .after fun us => ?_) (.pure .slnil)
      split
      · exact .after fun _ => .after fun _ => .through (.node rfl .slnil) fun n => .pure (by simp)
      · exact .after fun _ => .ite .fails (.bind fun e => .pure (by simp))

instance laid_outerAttribute : Laid (outerAttribute g) where
  laid := .after fun _ => .after fun _ => .bind fun body => .node rfl (by simp)

instance laid_innerAttribute : Laid (innerAttribute g) where
  laid := .after fun _ => .after fun _ => .after fun _ => .bind fun body => .node rfl (by simp)

instance laid_outerAttributes : Laid (outerAttributes g) := .many _

instance laid_innerAttributes : Laid (innerAttributes g) := .many _

omit [g.Ordered] in
theorem answers_innerAttributes_isAttribute :
    Answers (innerAttributes g) fun ns => ∀ n ∈ ns, n.isAttribute = true := by
  have hnode (start : Place) (body : List Node) :
      Answers (node .attribute start body) fun n => n.isAttribute = true :=
    .after fun _ => .pure rfl
  exact .many (.after fun _ => .after fun _ => .after fun _ => .after fun _ => hnode _ _) _

/-! ### Generic arguments -/

instance laid_block : Laid (block g) where
  laid := .after fun _ => .bind fun body => .node rfl (by simp)

instance laid_attributedBody : Laid (attributedBody g) where
  laid := by
    refine .after fun _ => .bind_of (.within ?_ _) fun ⟨attributes, statements⟩ => ?_
    · exact .bind fun _ => .bind fun _ => .pure (by simp)
    · simp only [nodes_prod, nodes_nodes, List.nil_append]
      exact .beyond (.node rfl (.refl _)) fun body => .pure (by simp)

instance laid_blockExpression : Laid (blockExpression g) where
  laid := .after fun _ => .bind fun ⟨attributes, body⟩ => .node rfl (by simp)

instance needs_blockExpression : Needs (blockExpression g) := by
  unfold blockExpression attributedBody
  infer_instance

instance laid_constArgument : Laid (constArgument g) where
  laid := by
    refine .marked fun start => .after fun ts => .ite ?_ (.ite ?_ (.ite ?_ .fails))
    · exact .after fun l => .node rfl (by simp)
    · exact .after fun name => .path (by simp)
    · exact Laid.lays

instance laid_genericArgument : Laid (genericArgument g) where
  laid := by
    refine .after fun ts => .ite (.after fun _ => .pure .slnil) (.ite ?_ ?_)
    · exact .bind fun c => .pure (by simp)
    · refine .bind fun ty => ?_
      split
      · split
        · refine .ite (.pure (by simp)) (.after fun eq => .ite (.after fun us => .ite ?_ ?_) ?_)
          · exact .bind fun c => .pure (by simp)
          · exact .bind fun t => .pure (by simp)
          · refine .after fun colon => .ite ?_ (.pure (by simp))
            exact .bind fun bounds => .pure (by simp)
        · exact .pure (by simp)
      · exact .pure (by simp)

instance laid_angledArguments : Laid (angledArguments g) where
  laid := .after fun _ => .after fun _ => .bind fun args => .after fun _ => .pure (by simp)

instance laid_parenthesizedArguments : Laid (parenthesizedArguments g) where
  laid := by
    refine .bind fun inputs => .after fun arrow => .ite ?_ (.pure (by simp))
    refine .bind fun result => .pure (by simp)

/-! ### Paths -/

instance laid_segment (inExpression : Bool) : Laid (segment g inExpression) where
  laid := by
    refine .after fun ts => .ite (.after fun w => .pure (by simp)) (.either fun name => ?_)
    exact .after fun us => .ite (.bind fun args => .pure (by simp)) (.pure (by simp))

instance laid_furtherSegments (inExpression : Bool) (more : List Token → Bool) :
    Laid (furtherSegments g inExpression more) :=
  have : Laid (do take "::"; segment g inExpression) := ⟨.after fun _ => Laid.lays⟩
  .many more

instance laid_unqualifiedPath (inExpression : Bool) : Laid (unqualifiedPath g inExpression) where
  laid := .after fun rooted => .bind fun first => .bind fun rest => .pure (by simp [Path.extend])

instance laid_path (inExpression : Bool) : Laid (path g inExpression) where
  laid := by
    refine .after fun qualified => .ite Laid.lays (.bind fun self => ?_)
    have hbase (base : Path) : Lays .row (nodes self ++ base.nodes) (do
        take ">"
        take "::"
        let first ← segment g inExpression
        let rest ← furtherSegments g inExpression (sees "::")
        let p := base.extend (first :: rest)
        return { p with qualified := true, nodes := self.nodes ++ p.nodes }) :=
      .after fun _ => .after fun _ => .bind fun first => .bind fun rest =>
        .pure (by simp [Path.extend])
    refine .after fun as' => .ite (.bind fun base => hbase base) ?_
    exact .given (.mono (hbase _) (by simp))

omit [g.Ordered] in
instance needs_segment (inExpression : Bool) : Needs (segment g inExpression) := by
  unfold segment
  infer_instance

omit [g.Ordered] in
instance needs_path (inExpression : Bool) : Needs (path g inExpression) :=
  have hpath : Needs (unqualifiedPath g inExpression) := .takes_bind
  Needs.takes_bind (h := hpath)

instance laid_invocationBody (p : Path) (start : Place) : Laid (invocationBody g p start) where
  laid := ⟨fun {l m e s _ _} ha hb hr => by
    obtain ⟨⟨d, body, close⟩, s, hgroup, hr⟩ := run_bind_eq_ok hr
    obtain ⟨j, hj, hbody, hb⟩ := between_anyGroup hb hgroup
    have hle : l ≤ j := Nat.le_trans ha hj
    dsimp only at hr
    split at hr
    · rename_i args hargs
      have hrow := (row_of_complete hbody hargs).mono hle (Nat.le_refl _)
      rw [nodes_nodes] at hrow
      exact (Lays.node rfl (.refl args)).lays hrow hb hr
    · have hrow : Row l close.line [] := hle.trans hbody.le
      exact (Lays.node rfl .slnil).lays hrow hb hr⟩

instance laid_invocation (p : Path) (start : Place) : Laid (invocation g p start) :=
  ⟨.after fun _ => Laid.lays⟩

end Retrace.Source
