import Mathlib.Data.List.Basic

/-! Written forms that can be told from what comes after them. -/
namespace Retrace.Text

variable {α β κ : Type} {f : α → List β} {key : α → κ} {as bs : List α} {r s : List β}

/-- The front of a text tells where a written form ends and, up to a key, whose form it is. -/
def Tells (f : α → List β) (key : α → κ) : Prop :=
  ∀ ⦃a b : α⦄ ⦃r s : List β⦄, f a ++ r = f b ++ s → key a = key b ∧ r = s

/-- Forms one after another tell where they end when what comes then starts with none of them. -/
theorem Tells.flatMap (hf : Tells f key) (Over : List β → Prop) (ho : ∀ a r, ¬ Over (f a ++ r))
    (hr : Over r) (hs : Over s) (h : as.flatMap f ++ r = bs.flatMap f ++ s) :
    as.map key = bs.map key ∧ r = s := by
  induction as generalizing bs with
  | nil =>
    cases bs with
    | nil => exact ⟨rfl, h⟩
    | cons b bs =>
      rw [List.flatMap_nil, List.nil_append, List.flatMap_cons, List.append_assoc] at h
      exact absurd (h ▸ hr) (ho b _)
  | cons a as ih =>
    cases bs with
    | nil =>
      rw [List.flatMap_nil, List.nil_append, List.flatMap_cons, List.append_assoc] at h
      exact absurd (h ▸ hs) (ho a _)
    | cons b bs =>
      rw [List.flatMap_cons, List.flatMap_cons, List.append_assoc, List.append_assoc] at h
      obtain ⟨hab, hrest⟩ := hf h
      obtain ⟨hkeys, hrs⟩ := ih hrest
      exact ⟨by rw [List.map_cons, List.map_cons, hab, hkeys], hrs⟩

/-- The items of a mapped list are known when what comes after it is no mapped item. -/
theorem map_cancel {g : α → β} (hg : Function.Injective g) (Over : List β → Prop)
    (ho : ∀ a r, ¬ Over (g a :: r)) (hr : Over r) (hs : Over s)
    (h : as.map g ++ r = bs.map g ++ s) : as = bs ∧ r = s := by
  have hone : Tells (fun a => [g a]) id := by
    intro a b r s h
    obtain ⟨hab, hrs⟩ := List.cons.inj h
    exact ⟨hg hab, hrs⟩
  rw [List.map_eq_flatMap, List.map_eq_flatMap] at h
  obtain ⟨hab, hrs⟩ := hone.flatMap Over ho hr hs h
  rw [List.map_id, List.map_id] at hab
  exact ⟨hab, hrs⟩

end Retrace.Text
