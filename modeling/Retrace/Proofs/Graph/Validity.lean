import Retrace.Graph.Validity
import Retrace.Proofs.Graph.Multigraph

/-! What the checks of a graph find, one by one. -/
namespace Retrace.StaticGraph

open Relation

variable {g : StaticGraph} {nodes : List GraphNode} {n : GraphNode} {i k : Nat}

theorem firstRepeated_eq_none_iff {seen ids : List String} :
    firstRepeated seen ids = none ↔ ids.Nodup ∧ ∀ id ∈ ids, id ∉ seen := by
  induction ids generalizing seen with
  | nil => simp [firstRepeated]
  | cons id ids ih =>
    by_cases hs : id ∈ seen
    · simp [firstRepeated, hs]
    · rw [firstRepeated, if_neg hs, ih, List.nodup_cons]
      constructor
      · rintro ⟨hd, hn⟩
        have hid : id ∉ ids := fun h => hn id h (by simp)
        refine ⟨⟨hid, hd⟩, List.forall_mem_cons.mpr ⟨hs, fun x hx h => hn x hx (by simp [h])⟩⟩
      · rintro ⟨⟨hid, hd⟩, hn⟩
        refine ⟨hd, fun x hx h => ?_⟩
        rcases List.mem_cons.mp h with rfl | h
        · exact hid hx
        · exact hn x (by simp [hx]) h

/-- The id that is reported stands where the ids start to repeat. -/
theorem firstRepeated_eq_some_iff {seen ids : List String} {id : String} :
    firstRepeated seen ids = some id ↔ ∃ before after, ids = before ++ id :: after ∧
      before.Nodup ∧ (∀ x ∈ before, x ∉ seen) ∧ (id ∈ seen ∨ id ∈ before) := by
  induction ids generalizing seen with
  | nil => simp [firstRepeated]
  | cons first ids ih =>
    by_cases hs : first ∈ seen
    · rw [firstRepeated, if_pos hs]
      constructor
      · rintro ⟨⟩
        exact ⟨[], ids, rfl, List.nodup_nil, by simp, Or.inl hs⟩
      · rintro ⟨before, after, hids, -, hnew, -⟩
        cases before with
        | nil => exact congrArg some (List.cons.inj hids).1
        | cons x before =>
          obtain rfl := (List.cons.inj hids).1
          exact absurd hs (hnew first List.mem_cons_self)
    · rw [firstRepeated, if_neg hs, ih]
      constructor
      · rintro ⟨before, after, rfl, hd, hnew, hold⟩
        refine ⟨first :: before, after, rfl, List.nodup_cons.mpr ⟨fun h => ?_, hd⟩, ?_, ?_⟩
        · exact hnew first h List.mem_cons_self
        · exact List.forall_mem_cons.mpr ⟨hs, fun x hx h => hnew x hx (List.mem_cons_of_mem _ h)⟩
        · simpa [or_assoc, or_comm, or_left_comm] using hold
      · rintro ⟨before, after, hids, hd, hnew, hold⟩
        cases before with
        | nil =>
          obtain rfl := (List.cons.inj hids).1
          exact absurd (hold.resolve_right List.not_mem_nil) hs
        | cons x before =>
          obtain ⟨rfl, rfl⟩ := List.cons.inj hids
          obtain ⟨hx, hd⟩ := List.nodup_cons.mp hd
          refine ⟨before, after, rfl, hd, fun y hy h => ?_, ?_⟩
          · rcases List.mem_cons.mp h with rfl | h
            · exact hx hy
            · exact hnew y (List.mem_cons_of_mem _ hy) h
          · simpa [or_assoc, or_comm, or_left_comm] using hold

theorem firstDangling_eq_none_iff :
    g.firstDangling = none ↔ ∀ n ∈ g.nodes, ∀ c ∈ n.children, c ∈ g.ids := by
  simp [firstDangling, List.findSome?_eq_none_iff]

/-- The reference that is reported comes first among those that lead nowhere. -/
theorem firstDangling_eq_some_iff {parent child : String} :
    g.firstDangling = some (parent, child) ↔ ∃ before n after resolved rest,
      g.nodes = before ++ n :: after ∧ n.id = parent ∧ n.children = resolved ++ child :: rest ∧
      (∀ m ∈ before, ∀ c ∈ m.children, c ∈ g.ids) ∧ (∀ c ∈ resolved, c ∈ g.ids) ∧
      child ∉ g.ids := by
  simp only [firstDangling, List.findSome?_eq_some_iff, Option.map_eq_some_iff, Prod.mk.injEq,
    List.find?_eq_some_iff_append, Option.map_eq_none_iff, List.find?_eq_none]
  constructor
  · rintro ⟨before, n, after, hn, ⟨c, ⟨hc, resolved, rest, hchildren, hres⟩, rfl, rfl⟩, hbefore⟩
    exact ⟨before, n, after, resolved, rest, hn, rfl, hchildren, by simpa using hbefore,
      by simpa using hres, by simpa using hc⟩
  · rintro ⟨before, n, after, resolved, rest, hn, rfl, hchildren, hbefore, hres, hc⟩
    exact ⟨before, n, after, hn, ⟨child, ⟨by simpa using hc, resolved, rest, hchildren,
      by simpa using hres⟩, rfl, rfl⟩, by simpa using hbefore⟩

/-! ### Cycles -/

theorem finIdxOf?_eq_some_iff_of_nodup {ids : List String} (hd : ids.Nodup) {id : String}
    {a : Fin ids.length} : ids.finIdxOf? id = some a ↔ ids[a] = id := by
  rw [List.finIdxOf?_eq_some_iff, and_iff_left_iff_imp]
  rintro rfl j hj he
  have : j.val = a.val := (hd.getElem_inj_iff).mp he
  omega

theorem exists_node (a : Fin g.ids.length) :
    ∃ n, g.nodes[a.val]? = some n ∧ n.id = g.ids[a] := by
  have ha : g.ids[a.val]? = some g.ids[a] := List.getElem?_eq_getElem a.isLt
  simp only [ids, List.getElem?_map, Option.map_eq_some_iff] at ha
  exact ha

theorem exists_place {id : String} (h : id ∈ g.ids) : ∃ a : Fin g.ids.length, g.ids[a] = id := by
  obtain ⟨i, hi, rfl⟩ := List.getElem_of_mem h
  exact ⟨⟨i, hi⟩, rfl⟩

theorem place_inj (hd : g.ids.Nodup) {a b : Fin g.ids.length} (h : g.ids[a] = g.ids[b]) : a = b :=
  Fin.ext ((hd.getElem_inj_iff).mp h)

/-- When ids are distinct, the edges are the references between places. -/
theorem edge_references_iff (hd : g.ids.Nodup) {a b : Fin g.ids.length} :
    g.references.Edge a b ↔ ∃ n ∈ g.nodes, n.id = g.ids[a] ∧ g.ids[b] ∈ n.children := by
  show (a, b) ∈ g.edges ↔ _
  simp only [edges, List.mem_flatMap, List.mem_filterMap, bind, Option.bind_eq_some_iff,
    finIdxOf?_eq_some_iff_of_nodup hd, pure, Option.some.injEq, Prod.mk.injEq]
  constructor
  · rintro ⟨n, hn, c, hc, a, ha, b, hb, rfl, rfl⟩
    exact ⟨n, hn, ha.symm, hb ▸ hc⟩
  · rintro ⟨n, hn, ha, hb⟩
    exact ⟨n, hn, _, hb, a, ha.symm, b, rfl, rfl, rfl⟩

theorem leads_of_transGen (hd : g.ids.Nodup) {a b : Fin g.ids.length}
    (h : TransGen g.references.Edge a b) : g.Leads g.ids[a] g.ids[b] := by
  have hstep : ∀ {a b : Fin g.ids.length}, g.references.Edge a b → g.Leads g.ids[a] g.ids[b] := by
    intro a b he
    obtain ⟨n, hn, ha, hb⟩ := (edge_references_iff hd).mp he
    exact ha ▸ .child hn hb
  induction h with
  | single he => exact hstep he
  | tail _ he ih => exact .trans ih (hstep he)

theorem transGen_of_leads (hd : g.ids.Nodup) (hr : ∀ n ∈ g.nodes, ∀ c ∈ n.children, c ∈ g.ids)
    {x y : String} (h : g.Leads x y) : ∃ a b : Fin g.ids.length, g.ids[a] = x ∧ g.ids[b] = y ∧
      TransGen g.references.Edge a b := by
  induction h with
  | @child n c hn hc =>
    obtain ⟨a, ha⟩ := exists_place (List.mem_map_of_mem (f := GraphNode.id) hn)
    obtain ⟨b, rfl⟩ := exists_place (hr n hn c hc)
    exact ⟨a, b, ha, rfl, .single ((edge_references_iff hd).mpr ⟨n, hn, ha.symm, hc⟩)⟩
  | trans _ _ ihx ihy =>
    obtain ⟨a, b, ha, hb, hab⟩ := ihx
    obtain ⟨b', c, hb', hc, hbc⟩ := ihy
    obtain rfl := place_inj hd (hb.trans hb'.symm)
    exact ⟨a, c, ha, hc, hab.trans hbc⟩

/-- The edges have a cycle exactly when some node leads back to itself by its children. -/
theorem cyclic_references_iff (hd : g.ids.Nodup)
    (hr : ∀ n ∈ g.nodes, ∀ c ∈ n.children, c ∈ g.ids) :
    g.references.Cyclic ↔ ∃ id, g.Leads id id := by
  constructor
  · rintro ⟨a, h⟩
    exact ⟨g.ids[a], leads_of_transGen hd h⟩
  · rintro ⟨id, h⟩
    obtain ⟨a, b, ha, hb, hab⟩ := transGen_of_leads hd hr h
    obtain rfl := place_inj hd (ha.trans hb.symm)
    exact ⟨a, hab⟩

/-- Children come later in the list. -/
def Forward (nodes : List GraphNode) : Prop :=
  ∀ (i j : Nat) (a b : GraphNode), nodes[i]? = some a → nodes[j]? = some b → b.id ∈ a.children → i < j

/-- A graph in which children come later has no cycle. -/
theorem not_cyclic_of_forward (hd : g.ids.Nodup) (hf : Forward g.nodes) :
    ¬ g.references.Cyclic := by
  have hstep : ∀ {a b : Fin g.ids.length}, g.references.Edge a b → a < b := by
    intro a b he
    obtain ⟨m, hm, hma, hb⟩ := (edge_references_iff hd).mp he
    obtain ⟨n, hn, hna⟩ := exists_node a
    obtain ⟨n', hn', hnb⟩ := exists_node b
    obtain rfl : m = n :=
      List.inj_on_of_nodup_map hd hm (List.mem_of_getElem? hn) (hma.trans hna.symm)
    exact hf a b m n' hn hn' (hnb ▸ hb)
  have hlt : ∀ {a b : Fin g.ids.length}, TransGen g.references.Edge a b → a < b := by
    intro a b h
    induction h with
    | single he => exact hstep he
    | tail _ he ih => exact ih.trans (hstep he)
  rintro ⟨a, h⟩
  exact lt_irrefl a (hlt h)

/-- Children come later when none stands before its parent and none is its own. -/
theorem forward_of_pairwise (hp : nodes.Pairwise fun a b => a.id ∉ b.children)
    (hs : ∀ a ∈ nodes, a.id ∉ a.children) : Forward nodes := by
  intro i j a b ha hb hc
  obtain ⟨hi, rfl⟩ := List.getElem?_eq_some_iff.mp ha
  obtain ⟨hj, rfl⟩ := List.getElem?_eq_some_iff.mp hb
  rcases Nat.lt_trichotomy i j with h | rfl | h
  · exact h
  · exact absurd hc (hs _ (List.getElem_mem hi))
  · exact absurd hc (List.pairwise_iff_getElem.mp hp j i hj hi h)

/-! ### All checks -/

variable {isCyclic : Multigraph → Bool} {e : GraphError}

/-- A test for cycles tells exactly the graphs that have one. -/
def DecidesCycles (isCyclic : Multigraph → Bool) : Prop := ∀ m, isCyclic m = true ↔ m.Cyclic

/-- With both counts right, ids are looked at, then references, and then cycles. -/
theorem validateWith_of_counts (hs : g.count .start = 1) (ht : g.count .terminal = 1) :
    g.validateWith isCyclic = match firstRepeated [] g.ids with
      | some id => .error (.duplicateNode id)
      | none =>
        match g.firstDangling with
        | some (parent, child) => .error (.danglingChild parent child)
        | none => if isCyclic g.references then .error .cyclic else .ok () :=
  (if_neg (not_not_intro hs)).trans (if_neg (not_not_intro ht))

/-- When only the test for cycles is left, it decides. -/
theorem validateWith_of_resolved (hs : g.count .start = 1) (ht : g.count .terminal = 1)
    (hd : g.ids.Nodup) (hr : ∀ n ∈ g.nodes, ∀ c ∈ n.children, c ∈ g.ids) :
    g.validateWith isCyclic = if isCyclic g.references then .error .cyclic else .ok () := by
  have hrep : firstRepeated [] g.ids = none := firstRepeated_eq_none_iff.mpr ⟨hd, by simp⟩
  rw [validateWith_of_counts hs ht, hrep, firstDangling_eq_none_iff.mpr hr]

/-- A graph passes when every check finds nothing. -/
theorem validate_eq_ok (hs : g.count .start = 1) (ht : g.count .terminal = 1) (hd : g.ids.Nodup)
    (hr : ∀ n ∈ g.nodes, ∀ c ∈ n.children, c ∈ g.ids) (hf : Forward g.nodes) :
    g.validate = .ok () := by
  have hc : ¬ g.references.isCyclic = true := fun h =>
    not_cyclic_of_forward hd hf ((Multigraph.isCyclic_iff _).mp h)
  rw [validate, validateWith_of_resolved hs ht hd hr, if_neg hc]

end Retrace.StaticGraph
