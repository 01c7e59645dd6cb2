import Retrace.Proofs.Graph.Validity

/-! The checks of a graph pass exactly the well-formed ones, and what they report of another is the
first defect in a fixed order. -/
namespace Retrace.StaticGraph

variable {g : StaticGraph} {isCyclic : Multigraph → Bool} {e : GraphError}

/-- The defect of a graph that is reported. The number of entries comes first, then the number of
exits, ids in the order of the nodes, references in the order of the nodes and of their children,
and cycles. -/
inductive FirstDefect (g : StaticGraph) : GraphError → Prop
  | start : g.count .start ≠ 1 → FirstDefect g (.miscounted .start (g.count .start))
  | terminal : g.count .start = 1 → g.count .terminal ≠ 1 →
      FirstDefect g (.miscounted .terminal (g.count .terminal))
  | duplicate {before after : List GraphNode} {n : GraphNode} :
      g.count .start = 1 → g.count .terminal = 1 → g.nodes = before ++ n :: after →
      (before.map GraphNode.id).Nodup → n.id ∈ before.map GraphNode.id →
      FirstDefect g (.duplicateNode n.id)
  | dangling {before after : List GraphNode} {n : GraphNode} {resolved rest : List String}
      {child : String} :
      g.count .start = 1 → g.count .terminal = 1 → g.ids.Nodup → g.nodes = before ++ n :: after →
      n.children = resolved ++ child :: rest → (∀ m ∈ before, ∀ c ∈ m.children, c ∈ g.ids) →
      (∀ c ∈ resolved, c ∈ g.ids) → child ∉ g.ids → FirstDefect g (.danglingChild n.id child)
  | cyclic {id : String} :
      g.count .start = 1 → g.count .terminal = 1 → g.ids.Nodup →
      (∀ n ∈ g.nodes, ∀ c ∈ n.children, c ∈ g.ids) → g.Leads id id → FirstDefect g .cyclic

/-- The first id that repeats belongs to the first node of which the id stood before. -/
theorem firstRepeated_ids_eq_some_iff {id : String} :
    firstRepeated [] g.ids = some id ↔ ∃ before n after, g.nodes = before ++ n :: after ∧
      (before.map GraphNode.id).Nodup ∧ n.id ∈ before.map GraphNode.id ∧ n.id = id := by
  rw [firstRepeated_eq_some_iff]
  constructor
  · rintro ⟨ids, rest, hids, hd, -, hold⟩
    obtain ⟨before, tail, hn, rfl, htail⟩ := List.map_eq_append_iff.mp hids
    obtain ⟨n, after, rfl, rfl, rfl⟩ := List.map_eq_cons_iff.mp htail
    exact ⟨before, n, after, hn, hd, hold.resolve_left List.not_mem_nil, rfl⟩
  · rintro ⟨before, n, after, hn, hd, hold, rfl⟩
    refine ⟨before.map GraphNode.id, after.map GraphNode.id, ?_, hd, by simp, Or.inr hold⟩
    rw [ids, hn, List.map_append, List.map_cons]

/-- A graph that is not well-formed has a first defect. -/
theorem wellFormed_or_firstDefect (g : StaticGraph) : g.WellFormed ∨ ∃ e, g.FirstDefect e := by
  by_cases hs : g.count .start = 1
  swap
  · exact Or.inr ⟨_, .start hs⟩
  by_cases ht : g.count .terminal = 1
  swap
  · exact Or.inr ⟨_, .terminal hs ht⟩
  cases hrep : firstRepeated [] g.ids with
  | some id =>
    obtain ⟨before, n, after, hn, hd, hold, -⟩ := firstRepeated_ids_eq_some_iff.mp hrep
    exact Or.inr ⟨_, .duplicate hs ht hn hd hold⟩
  | none =>
    have hd : g.ids.Nodup := (firstRepeated_eq_none_iff.mp hrep).1
    cases hdang : g.firstDangling with
    | some reference =>
      obtain ⟨parent, child⟩ := reference
      obtain ⟨before, n, after, resolved, rest, hn, -, hchildren, hbefore, hres, hchild⟩ :=
        firstDangling_eq_some_iff.mp hdang
      exact Or.inr ⟨_, .dangling hs ht hd hn hchildren hbefore hres hchild⟩
    | none =>
      have hr := firstDangling_eq_none_iff.mp hdang
      by_cases hcyc : ∃ id, g.Leads id id
      · obtain ⟨id, hid⟩ := hcyc
        exact Or.inr ⟨_, .cyclic hs ht hd hr hid⟩
      · exact Or.inl ⟨hs, ht, hd, hr, not_exists.mp hcyc⟩

theorem cyclic_iff_leads (hc : DecidesCycles isCyclic) (hd : g.ids.Nodup)
    (hr : ∀ n ∈ g.nodes, ∀ c ∈ n.children, c ∈ g.ids) :
    isCyclic g.references = true ↔ ∃ id, g.Leads id id :=
  (hc _).trans (cyclic_references_iff hd hr)

theorem WellFormed.validateWith (hc : DecidesCycles isCyclic) (h : g.WellFormed) :
    g.validateWith isCyclic = .ok () := by
  have hnot : ¬ isCyclic g.references = true := fun hcyc => by
    obtain ⟨id, hid⟩ := (cyclic_iff_leads hc h.distinct h.resolved).mp hcyc
    exact h.acyclic id hid
  rw [validateWith_of_resolved h.oneStart h.oneEnd h.distinct h.resolved, if_neg hnot]

theorem FirstDefect.validateWith (hc : DecidesCycles isCyclic) (h : g.FirstDefect e) :
    g.validateWith isCyclic = .error e := by
  cases h with
  | start hs => rw [StaticGraph.validateWith, if_pos hs]
  | terminal hs ht => rw [StaticGraph.validateWith, if_neg (not_not_intro hs), if_pos ht]
  | duplicate hs ht hn hd hold =>
    have hrep := firstRepeated_ids_eq_some_iff.mpr ⟨_, _, _, hn, hd, hold, rfl⟩
    rw [validateWith_of_counts hs ht, hrep]
  | dangling hs ht hd hn hchildren hbefore hres hchild =>
    have hrep : firstRepeated [] g.ids = none := firstRepeated_eq_none_iff.mpr ⟨hd, by simp⟩
    have hdang := firstDangling_eq_some_iff.mpr
      ⟨_, _, _, _, _, hn, rfl, hchildren, hbefore, hres, hchild⟩
    rw [validateWith_of_counts hs ht, hrep, hdang]
  | cyclic hs ht hd hr hid =>
    rw [validateWith_of_resolved hs ht hd hr, if_pos ((cyclic_iff_leads hc hd hr).mpr ⟨_, hid⟩)]

/-- With any test that tells which directed graphs have a cycle, the checks pass exactly the
well-formed graphs, and of any other graph they report its first defect. -/
theorem validateWith_decides (hc : DecidesCycles isCyclic) (g : StaticGraph) :
    (g.validateWith isCyclic = .ok () ↔ g.WellFormed) ∧
      (∀ e, g.validateWith isCyclic = .error e ↔ g.FirstDefect e) ∧
      g.validateWith isCyclic = g.validate := by
  have htest : isCyclic = Multigraph.isCyclic := by
    funext m
    exact Bool.eq_iff_iff.mpr ((hc m).trans (Multigraph.isCyclic_iff m).symm)
  refine ⟨⟨fun h => ?_, WellFormed.validateWith hc⟩,
    fun e => ⟨fun h => ?_, FirstDefect.validateWith hc⟩, by rw [htest, validate]⟩
  · rcases wellFormed_or_firstDefect g with hw | ⟨e, he⟩
    · exact hw
    · simp [he.validateWith hc] at h
  · rcases wellFormed_or_firstDefect g with hw | ⟨e', he⟩
    · simp [hw.validateWith hc] at h
    · obtain rfl : e' = e := Except.error.inj ((he.validateWith hc).symm.trans h)
      exact he

def sampleNode (id : String) (kind : NodeKind) (children : List String) : GraphNode :=
  ⟨id, "", kind, [], [], children⟩

/-- A graph in which a node leads back to itself by way of another one. -/
def sampleCycle : StaticGraph :=
  ⟨[sampleNode "start" .start ["a", "a"], sampleNode "a" .decision ["b", "end"],
    sampleNode "b" .decision ["a"], sampleNode "end" .terminal []]⟩

/-- The sample cycle has no other defect, and is reported. -/
theorem validate_sampleCycle : DecidesCycles Multigraph.isCyclic ∧
    sampleCycle.validate = .error .cyclic := by
  have hc : DecidesCycles Multigraph.isCyclic := Multigraph.isCyclic_iff
  have hab : sampleCycle.Leads "a" "b" :=
    .child (n := sampleNode "a" .decision ["b", "end"]) (by decide) (by decide)
  have hba : sampleCycle.Leads "b" "a" :=
    .child (n := sampleNode "b" .decision ["a"]) (by decide) (by decide)
  obtain ⟨-, herror, hsame⟩ := validateWith_decides hc sampleCycle
  refine ⟨hc, hsame ▸ (herror .cyclic).mpr ?_⟩
  exact .cyclic (by decide) (by decide) (by decide) (by decide) (hab.trans hba)

end Retrace.StaticGraph
