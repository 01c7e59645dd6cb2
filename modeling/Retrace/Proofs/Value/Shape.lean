import Retrace.Proofs.Json.Floats
import Retrace.Proofs.Value.Restores

/-! The record of a value is read with the same variant at every place just if its floating point
numbers are finite and its lists are not nested too deep; otherwise it is not read at all. -/
namespace Retrace.Value

open Json Number

variable {room k : Nat} {name : String} {kind : Kind} {d : Json} {v : Value} {vs ws : List Value}

mutual
/-- Whether every floating point number in a value is finite. -/
def finite : Value → Bool
  | float x => x.isFinite
  | list items => finites items
  | _ => true

def finites : List Value → Bool
  | [] => true
  | v :: vs => v.finite && finites vs
end

mutual
/-- Every number in a value is one of sixty-four bits. -/
def Wide : Value → Prop
  | int n => fits n = true
  | float x => x.Wide
  | list items => Wides items
  | _ => True

def Wides : List Value → Prop
  | [] => True
  | v :: vs => v.Wide ∧ Wides vs
end

/-- The values have the same variant at every place, and only floating point numbers may differ. -/
inductive Alike : Value → Value → Prop
  | same (v : Value) : Alike v v
  | float (x y : Binary) : Alike (.float x) (.float y)
  | list {vs ws : List Value} : List.Forall₂ Alike vs ws → Alike (.list vs) (.list ws)

/-! ### Values in lists -/

theorem finites_iff : finites vs = true ↔ ∀ v ∈ vs, v.finite = true := by
  induction vs with
  | nil => simp [finites]
  | cons v vs ih => rw [finites, Bool.and_eq_true, ih, List.forall_mem_cons]

theorem depths_le_iff : depths vs ≤ k ↔ ∀ v ∈ vs, v.depth ≤ k := by
  induction vs with
  | nil => simp [depths]
  | cons v vs ih => rw [depths, max_le_iff, ih, List.forall_mem_cons]

/-! ### One value -/

/-- With room for `k` lists the record of a value is read as a value like it. A list takes room twice,
for itself and for its record, and the value takes room for its own record. -/
def Kept (k : Nat) (v : Value) : Prop :=
  (v.finite = true ∧ v.depth ≤ k) ∧ ∃ w, Restores (read (2 * k + 1)) v.toJson w ∧ Alike v w

/-- With room for `k` lists the record of a value is not read. -/
def Lost (k : Nat) (v : Value) : Prop :=
  ¬ (v.finite = true ∧ v.depth ≤ k) ∧ Refuses (read (2 * k + 1)) v.toJson.render.toList

theorem refuses_kind (hk : kinds.lookup name = some kind)
    (h : Refuses (contentOf (Decoder.list read room) room kind) d.render.toList) :
    Refuses (read (room + 1)) (Json.record [("type", .text name), ("value", d)]).render.toList := by
  have ht := refuses_tagged sound_recordLetters hk h
  rw [taggedText, ← render_text] at ht
  rw [read_succ, render_record]
  exact ht

/-- A value without numbers that may change and without lists comes back as it is. -/
theorem kept_of_exact (he : v.exact = true) (hf : v.finite = true) (hd : v.depth = 0) (k : Nat) :
    Kept k v :=
  ⟨⟨hf, by omega⟩, v, restores_toJson v (2 * k + 1) he (by omega), .same v⟩

theorem kept_or_lost_float {x : Binary} (hx : x.Wide) (k : Nat) :
    Kept k (float x) ∨ Lost k (float x) := by
  cases hf : x.isFinite with
  | true =>
    obtain ⟨y, hy⟩ := Decoder.restores_float hx hf (2 * k)
    exact Or.inl ⟨⟨hf, Nat.zero_le k⟩, float y, restores_kind rfl (hy.map float), .float x y⟩
  | false =>
    refine Or.inr ⟨fun h => Bool.false_ne_true (hf.symm.trans h.1), ?_⟩
    have hnull : (Json.float x).render.toList = "null".toList := by
      rw [Json.float, hf]
      rfl
    have hrefused := Decoder.refuses_float_null (2 * k)
    rw [← hnull] at hrefused
    exact refuses_kind rfl (hrefused.map float)

/-! ### Lists -/

theorem render_toJsons (vs : List Value) :
    (Json.list (toJsons vs)).render.toList = listText (vs.map fun v => v.toJson.render.toList) := by
  rw [render_list, toJsons_eq_map, List.map_map]
  rfl

/-- A list of which every item is kept is kept. -/
theorem kept_list (h : ∀ v ∈ vs, Kept k v) : Kept (k + 1) (list vs) := by
  have hfinite : finites vs = true := finites_iff.mpr fun v hv => (h v hv).1.1
  have hdepth : depths vs ≤ k := depths_le_iff.mpr fun v hv => (h v hv).1.2
  obtain ⟨ws, hws⟩ : ∃ ws, List.Forall₂
      (fun v w => Restores (read (2 * k + 1)) v.toJson w ∧ Alike v w) vs ws := by
    clear hfinite hdepth
    induction vs with
    | nil => exact ⟨[], .nil⟩
    | cons v vs ih =>
      obtain ⟨w, hw⟩ := (h v List.mem_cons_self).2
      obtain ⟨ws, hws⟩ := ih fun u hu => h u (List.mem_cons_of_mem v hu)
      exact ⟨w :: ws, .cons hw hws⟩
  have hreads : List.Forall₂ (Reads (read (2 * k + 1)))
      (vs.map fun v => v.toJson.render.toList) ws :=
    List.forall₂_map_left_iff.mpr (hws.imp fun _ _ hw => hw.1)
  have hlist := Decoder.reads_list hreads
  rw [← render_toJsons] at hlist
  have halike : Alike (list vs) (list ws) := .list (hws.imp fun _ _ hw => hw.2)
  have hrestores : Restores (read (2 * (k + 1) + 1)) (list vs).toJson (list ws) :=
    restores_kind rfl (Reads.map hlist list)
  exact ⟨⟨hfinite, Nat.succ_le_succ hdepth⟩, list ws, hrestores, halike⟩

/-- A list of which an item is lost is lost. -/
theorem lost_list (h : ∀ v ∈ vs, Kept k v ∨ Lost k v) (hx : ∃ v ∈ vs, Lost k v) :
    Lost (k + 1) (list vs) := by
  obtain ⟨v, hv, hlost⟩ := hx
  constructor
  · rintro ⟨hfinite, hdepth⟩
    have hdepth : depths vs ≤ k := Nat.le_of_succ_le_succ hdepth
    exact hlost.1 ⟨finites_iff.mp hfinite v hv, depths_le_iff.mp hdepth v hv⟩
  · have hitems : ∀ u ∈ vs.map fun v => v.toJson.render.toList,
        (∃ w, Reads (read (2 * k + 1)) u w) ∨ Refuses (read (2 * k + 1)) u := by
      intro u hu
      obtain ⟨v, hv, rfl⟩ := List.mem_map.mp hu
      rcases h v hv with ⟨-, w, hw, -⟩ | hlost
      · exact Or.inl ⟨w, hw⟩
      · exact Or.inr hlost.2
    have hrefused := Decoder.refuses_list hitems ⟨_, List.mem_map_of_mem hv, hlost.2⟩
    rw [← render_toJsons] at hrefused
    exact refuses_kind rfl (hrefused.map list)

/-- No list is entered without room for it. -/
theorem lost_shut (vs : List Value) : Lost 0 (list vs) := by
  refine ⟨fun h => Nat.not_succ_le_zero (depths vs) h.2, ?_⟩
  have hrefused := Decoder.refuses_list_shut read (vs.map fun v => v.toJson.render.toList)
  rw [← render_toJsons] at hrefused
  exact refuses_kind rfl (hrefused.map list)

/-! ### All values -/

mutual
/-- The induction is on the value, with a list less to enter for the items of a list. -/
theorem kept_or_lost : ∀ (v : Value) (k : Nat), v.Wide → Kept k v ∨ Lost k v
  | text _, k, _ => Or.inl (kept_of_exact rfl rfl rfl k)
  | int n, k, hv => Or.inl (kept_of_exact (v := int n) hv rfl rfl k)
  | float _, k, hv => kept_or_lost_float hv k
  | truth _, k, _ => Or.inl (kept_of_exact rfl rfl rfl k)
  | char _, k, _ => Or.inl (kept_of_exact rfl rfl rfl k)
  | null, k, _ => Or.inl (kept_of_exact rfl rfl rfl k)
  | object _, k, _ => Or.inl (kept_of_exact rfl rfl rfl k)
  | list vs, 0, _ => Or.inr (lost_shut vs)
  | list vs, k + 1, hv => by
    have hitems := each_kept_or_lost vs k hv
    by_cases hx : ∃ v ∈ vs, Lost k v
    · exact Or.inr (lost_list hitems hx)
    · refine Or.inl (kept_list fun v hv => (hitems v hv).resolve_right fun hlost => ?_)
      exact hx ⟨v, hv, hlost⟩

theorem each_kept_or_lost : ∀ (vs : List Value) (k : Nat), Wides vs →
    ∀ v ∈ vs, Kept k v ∨ Lost k v
  | [], _, _ => by simp
  | v :: vs, k, hv =>
    List.forall_mem_cons.mpr ⟨kept_or_lost v k hv.1, each_kept_or_lost vs k hv.2⟩
end

end Retrace.Value
