import Retrace.Proofs.Source.Order.Types

/-! Patterns are read in the order of the text. -/
namespace Retrace.Source

open Source.Parser Node

/-! ### Fields and limits -/

instance moves_index : Moves index := .bind (h := fun start => .ahead_bind fun ts => by
  split
  · exact .bind (.goOn (literalAhead?_suffix ‹_›))
  · exact .of_moves)

instance moves_member : Moves member := by
  unfold member
  infer_instance

instance needs_index : Needs index :=
  .here_bind (h := fun _ => .of_ahead (inferInstanceAs (Fails (fail _))))

instance needs_member : Needs member := by
  unfold member
  infer_instance

instance moves_limits (threeDots : Bool) : Moves (limits threeDots) := by
  unfold limits
  infer_instance

variable {g : Grammar} [g.Ordered]

/-! ### Patterns -/

instance laid_alternatives : Laid (alternatives g) where
  laid := by
    have : Laid (do take "|"; g.pattern) := ⟨.after fun _ => Laid.lays⟩
    refine .after fun led => .bind fun first => .bind fun others => .ite ?_ ?_
    · exact .pure (by simp [plainPattern])
    · exact .pure (by simp)

instance laid_rangeBound : Laid (rangeBound g) where
  laid := by
    refine .after fun ts => .ite (.pure .slnil) (.marked fun start => ?_)
    refine .ite ?_ (.ite ?_ (.ite ?_ .fails))
    · exact .after fun l => .through (.node rfl (by simp)) fun n => .pure (by simp)
    · exact .bind fun p => .through (.path (by simp)) fun n => .pure (by simp)
    · exact .after fun _ => .bind fun ⟨attributes, body⟩ =>
        .through (.node rfl (by simp)) fun n => .pure (by simp)

theorem lays_rangeFrom (lower : List Node) : Lays .row lower (rangeFrom g lower) := by
  refine .after fun start => .after fun closed => .bind fun upper => ?_
  cases upper with
  | some upper => exact .pure (by simp [plainPattern])
  | none => exact .ite .fails (.pure (by simp))

instance laid_rangeTo : Laid (rangeTo g) where
  laid := by
    refine .after fun start => .after fun closed => .bind fun upper => ?_
    cases upper with
    | some upper => exact .pure (by simp)
    | none => exact .ite .fails (.pure (by simp))

instance laid_literalPattern : Laid (literalPattern g) where
  laid := by
    refine .bind fun lower => .after fun ts => .ite ?_ ?_
    · exact (lays_rangeFrom lower.toList).mono (by cases lower <;> simp)
    · exact .pure (by cases lower <;> simp [plainPattern])

instance laid_namePattern : Laid (namePattern g) where
  laid := by
    refine .after fun _ => .after fun _ => .after fun ts => .either fun name => .after fun at' => ?_
    exact .ite (.bind fun p => .pure (by simp)) (.pure .slnil)

instance laid_fieldPattern : Laid (fieldPattern g) where
  laid := by
    refine .after fun boxed => .after fun byReference => .after fun mutable => ?_
    refine .ite (.after fun _ => .pure .slnil) (.after fun field => ?_)
    cases field with
    | some name =>
      exact .after fun ts => .ite (.after fun _ => .bind fun p => .pure (by simp)) (.pure .slnil)
    | none => exact .after fun _ => .bind fun p => .pure (by simp)

instance laid_fieldPatterns (fuel : Nat) : Laid (fieldPatterns g fuel) where
  laid := by
    induction fuel with
    | zero => exact .pure .slnil
    | succ fuel ih =>
      have : Laid (fieldPatterns g fuel) := ⟨ih⟩
      refine .after fun ts => .ite (.pure .slnil) (.bind fun attributes => .after fun dots => ?_)
      refine .ite (.pure (by simp)) (.bind fun field => .after fun us => .ite (.pure (by simp)) ?_)
      exact .after fun _ => .bind fun fields => .pure (by simp)

instance laid_pathPattern : Laid (pathPattern g) where
  laid := by
    refine .marked fun start => .bind fun p => .after fun ts => .ite ?_ (.ite ?_ (.ite ?_ ?_))
    · exact .bind fun n => .pure (by simp [plainPattern])
    · exact .bind_of (.within (.after fun _ => Laid.lays) _) fun fields =>
        .pure (by simp [plainPattern])
    · exact .bind fun elems => .pure (by simp [plainPattern])
    · refine .through (.path (by simp)) fun self => .ite ?_ (.pure (by simp [plainPattern]))
      exact lays_rangeFrom [self]

instance laid_listElement : Laid (listElement g) where
  laid := by
    refine .bind fun p => ?_
    split
    · exact .fails
    · exact .pure (by simp)

theorem laid_pattern : Laid (pattern g) where
  laid := by
    refine .after fun ts => .ite Laid.lays (.after fun blank => .ite (.pure .slnil) ?_)
    refine .after fun boxed => .ite (.after fun _ => .pure .slnil) (.ite Laid.lays ?_)
    refine .ite Laid.lays (.after fun reference => ?_)
    refine .ite ?_ (.ite ?_ (.ite ?_ (.ite Laid.lays .fails)))
    · exact .after fun _ => .bind fun p => .pure (by simp [plainPattern])
    · exact .bind fun elems => .pure (by simp [plainPattern])
    · exact .bind fun elems => .pure (by simp [plainPattern])

end Retrace.Source
