import Retrace.Proofs.Source.Order.Operands

/-! Statements are read in the order of the text. -/
namespace Retrace.Source

open Source.Parser Node

instance moves_invocationStart : Moves invocationStart := .bind (h := fun s => by
  split <;> infer_instance)

variable {g : Grammar} [g.Ordered]

theorem lays_declaration (attributes : List Node) (start : Place) :
    Lays .row attributes (declaration g attributes start) := by
  refine .after fun _ => .bind fun p => .after fun colon => ?_
  refine have h (ty : TypeShape) : Lays .row (attributes ++ nodes p ++ nodes ty) _ := ?_
    .ite (.bind h) (.chosen h (by simp [plainType]))
  refine .after fun eq => ?_
  refine have h (value : List Node) :
      Lays .row (attributes ++ nodes p ++ nodes ty ++ nodes value) _ := ?_
    .ite (.bind fun e => .after fun _ => .after fun ts => .ite
      (.after fun _ => .bind fun b => .chosen h (by simp)) (.chosen h (by simp)))
      (.chosen h (by simp))
  exact .after fun _ => .node rfl (by simp)

-- An item starts at the attributes that have been read already, so that the rules, by which a reader
-- only goes on, do not apply to the whole.
instance laid_statement : Laid (statement g) where
  laid := ⟨fun {l m e s _ _} ha hb hr => by
    obtain ⟨_, _, hget, hr⟩ := run_bind_eq_ok hr
    obtain ⟨rfl, rfl⟩ := Prod.mk.inj (Except.ok.inj hget)
    obtain ⟨start, _, hhere, hr⟩ := run_bind_eq_ok hr
    obtain ⟨rfl, rfl⟩ := Prod.mk.inj (Except.ok.inj hhere)
    obtain ⟨attributes, s', hattributes, hr⟩ := run_bind_eq_ok hr
    obtain ⟨place, _, hhere, hr⟩ := run_bind_eq_ok hr
    obtain ⟨rfl, rfl⟩ := Prod.mk.inj (Except.ok.inj hhere)
    obtain ⟨kind, s', hkind, hr⟩ := run_bind_eq_ok hr
    obtain ⟨j, hb', hled⟩ := Lays.row_outerAttributes hb hattributes
    obtain ⟨j', hj, hb'⟩ := Moves.moves hb' hkind
    have hled : Row l j' ([] ++ led s.place attributes) := hled.mono ha hj
    have hled (p : Parser (Node × Bool)) (hp : Lays .row ([] ++ led s.place attributes) p) {x t}
        (hr : p.run s' = .ok (x, t)) := hp.lays hled hb' hr
    rcases run_ite_eq_ok hr with hr | hr
    · refine hled _ ?_ hr
      exact .after fun p => .bind fun n => .after fun _ => .attach (.pure (by simp))
    obtain ⟨ts, _, hahead, hr⟩ := run_bind_eq_ok hr
    obtain ⟨rfl, rfl⟩ := Prod.mk.inj (Except.ok.inj hahead)
    rcases run_ite_eq_ok hr with hr | hr
    · refine hled _ ?_ hr
      exact .through (.mono (lays_declaration attributes _) (by simp)) fun n => .pure (by simp)
    rcases run_ite_eq_ok hr with hr | hr
    -- An item is read once more from its attributes on.
    · obtain ⟨_, _, hset, hr⟩ := run_bind_eq_ok hr
      obtain ⟨-, rfl⟩ := Prod.mk.inj (Except.ok.inj hset)
      have hitem : Lays .row [] (do return (← g.item, false)) := .bind fun n => .pure (by simp)
      exact hitem.lays ha hb hr
    · refine hled _ ?_ hr
      exact .bind fun e => .after fun ended => .attach (.pure (by simp))⟩

instance laid_statementsFrom (fuel : Nat) : Laid (statementsFrom g fuel) where
  laid := by
    induction fuel with
    | zero => exact .pure .slnil
    | succ fuel ih =>
      have : Laid (statementsFrom g fuel) := ⟨ih⟩
      refine .after fun _ => .after fun ts => .ite (.pure .slnil) (.bind fun ⟨n, missing⟩ => ?_)
      exact .after fun us => .ite (.pure (by simp)) (.ite .fails (.bind fun ns => .pure (by simp)))

theorem laid_statements : Laid (statements g) where
  laid := .after fun _ => Laid.lays

end Retrace.Source
