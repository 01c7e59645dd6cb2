import Retrace.Graph.Unroll
import Retrace.Proofs.Graph.Validity

/-! The graph of a routine is the chain of its levels between entry and exit. -/
namespace Retrace

open Source

namespace GraphNode

variable {r : String} {i j : Nat}

theorem decisionId_inj (h : decisionId r i = decisionId r j) : i = j := by
  have hl : (toString i).toList = (toString j).toList := by
    have := congrArg String.toList h
    simpa [decisionId] using this
  have hd : Nat.toDigits 10 i = Nat.toDigits 10 j := by simpa using hl
  have hv := congrArg (fun ds => Nat.ofDigitChars 10 ds 0) hd
  simpa only [Nat.ofDigitChars_ten_toDigits] using hv

/-- The id of a level is no word without an underscore. -/
theorem decisionId_ne {word : String} (h : '_' ∉ word.toList) : decisionId r i ≠ word := by
  rintro rfl
  simp [decisionId] at h

end GraphNode

namespace Level

variable {l : Level} {n : Nat}

/-- The node of a level among `n` levels: every level but the last leads to the one below. -/
def nodeAmong (l : Level) (n i : Nat) : GraphNode :=
  { id := GraphNode.decisionId l.routine i
    label := "Recursion " ++ toString i
    kind := .decision
    parameters := l.parameters
    returnExpressions := l.returnExpressions
    children := if i + 1 < n then [GraphNode.decisionId l.routine (i + 1)] else [] }

theorem mem_children_nodeAmong {i : Nat} {c : String} : c ∈ (l.nodeAmong n i).children ↔
    i + 1 < n ∧ c = GraphNode.decisionId l.routine (i + 1) := by
  by_cases hlt : i + 1 < n <;> simp [nodeAmong, hlt]

theorem node_eq_nodeAmong {i : Nat} (h : n ≤ i + 1) : l.node i = l.nodeAmong n i := by
  simp [node, nodeAmong, GraphNode.decision, Nat.not_lt.mpr h]

theorem node_with_child_eq_nodeAmong {i : Nat} (h : i + 1 < n) :
    { l.node i with
      children := (l.node i).children ++ [GraphNode.decisionId l.routine (i + 1)] } =
    l.nodeAmong n i := by
  simp [node, nodeAmong, GraphNode.decision, h]

/-- The nodes of `n` levels between entry and exit. -/
def chain (l : Level) (n : Nat) : List GraphNode :=
  .entry l.routine :: (List.range n).map (l.nodeAmong n) ++ [.exit]

end Level

namespace Unrolling

variable {l : Level} {limit depth : Nat} {u : Unrolling}

theorem forCalls_fixed {f : Unrolling → Unrolling} (h : f u = u) (n : Nat) : forCalls f n u = u := by
  induction n with
  | zero => rfl
  | succ n ih => rw [forCalls, h, ih]

/-- No level from a depth on has been added. -/
def Fresh (l : Level) (depth : Nat) (u : Unrolling) : Prop :=
  ∀ j, depth ≤ j → GraphNode.decisionId l.routine j ∉ u.visited

theorem modify_append_singleton {α : Type} (f : α → α) (as : List α) (a : α) :
    (as ++ [a]).modify as.length f = as ++ [f a] := by
  induction as with
  | nil => rfl
  | cons b as ih => simpa using ih

/-- A child is added to the node that was pushed last. -/
theorem addChild_push (g : StaticGraph) (n : GraphNode) (c : String) :
    (g.push n).addChild g.size c = g.push { n with children := n.children ++ [c] } := by
  simp only [StaticGraph.push, StaticGraph.addChild, StaticGraph.size, modify_append_singleton]

theorem not_stopped (hd : depth < limit) (hf : Fresh l depth u) :
    ¬ (limit ≤ depth ∨ GraphNode.decisionId l.routine depth ∈ u.visited) := by
  rintro (h | h)
  · omega
  · exact hf depth (Nat.le_refl depth) h

/-- Below a level that has been added, the others have not. -/
theorem Fresh.below (hf : Fresh l depth u) (g : StaticGraph) :
    Fresh l (depth + 1) ⟨GraphNode.decisionId l.routine depth :: u.visited, g⟩ := by
  intro j hj hm
  rcases List.mem_cons.mp hm with h | h
  · have := GraphNode.decisionId_inj h
    omega
  · exact hf j (by omega) h

/-- A level without calls adds its own node and nothing else. -/
theorem unroll_of_no_calls (hk : l.selfCalls = 0) (hd : depth < limit) (hf : Fresh l depth u) :
    unroll l limit depth u =
      ⟨GraphNode.decisionId l.routine depth :: u.visited, u.graph.push (l.node depth)⟩ := by
  rw [unroll, hk]
  simp only [if_neg (not_stopped hd hf), forCalls]

/-- The first call in a level adds all levels below; after it no call adds anything. -/
theorem unroll_of_calls (hk : 0 < l.selfCalls) (hf : Fresh l depth u) (n : Nat)
    (hn : depth + (n + 1) = limit) :
    ∃ ids, GraphNode.decisionId l.routine depth ∈ ids ∧ u.visited ⊆ ids ∧
      unroll l limit depth u =
        ⟨ids, ⟨u.graph.nodes ++ (List.range' depth (n + 1)).map (l.nodeAmong limit)⟩⟩ := by
  have hstop := not_stopped (show depth < limit by omega) hf
  induction n generalizing depth u with
  | zero =>
    have hlast : limit ≤ depth + 1 := by omega
    refine ⟨GraphNode.decisionId l.routine depth :: u.visited, List.mem_cons_self,
      List.subset_cons_self _ _, ?_⟩
    rw [unroll]
    simp only [if_neg hstop]
    rw [forCalls_fixed (by rw [dif_pos (Or.inl hlast)]), Level.node_eq_nodeAmong hlast]
    rfl
  | succ n ih =>
    obtain ⟨k, hk'⟩ : ∃ k, l.selfCalls = k + 1 := ⟨l.selfCalls - 1, by omega⟩
    have hlt : depth + 1 < limit := by omega
    have hbelow := hf.below (u.graph.push (l.nodeAmong limit depth))
    obtain ⟨ids, hid, hsub, hrest⟩ := ih hbelow (by omega) (not_stopped hlt hbelow)
    refine ⟨ids, hsub List.mem_cons_self, fun v hv => hsub (List.mem_cons_of_mem _ hv), ?_⟩
    rw [unroll, hk']
    simp only [if_neg hstop, forCalls]
    rw [dif_neg (not_stopped hlt hbelow), addChild_push,
      Level.node_with_child_eq_nodeAmong hlt, hrest, forCalls_fixed (by rw [dif_pos (Or.inr hid)])]
    have hrange : List.range' depth (n + 1 + 1) = depth :: List.range' (depth + 1) (n + 1) :=
      List.range'_succ
    rw [hrange]
    simp [StaticGraph.push]

end Unrolling

namespace StaticGraph

variable {l : Level} {n : Nat}

theorem nodes_unroll (l : Level) (limit : Nat) (hl : 0 < limit) :
    (Unrolling.unroll l limit 0 ⟨[], empty.push (.entry l.routine)⟩).graph.push .exit =
      ⟨l.chain (if l.selfCalls = 0 then 1 else limit)⟩ := by
  have hf : Unrolling.Fresh l 0 ⟨[], empty.push (.entry l.routine)⟩ := by simp [Unrolling.Fresh]
  by_cases hk : l.selfCalls = 0
  · rw [Unrolling.unroll_of_no_calls hk hl hf, if_pos hk]
    rfl
  · obtain ⟨n, rfl⟩ : ∃ n, limit = n + 1 := ⟨limit - 1, by omega⟩
    obtain ⟨ids, -, -, hu⟩ := Unrolling.unroll_of_calls (Nat.pos_of_ne_zero hk) hf n (Nat.zero_add _)
    rw [hu, if_neg hk]
    simp [Level.chain, push, empty, List.range_eq_range']

theorem ids_chain (l : Level) (n : Nat) : (StaticGraph.mk (l.chain n)).ids =
    "start" :: (List.range n).map (GraphNode.decisionId l.routine) ++ ["end"] := by
  simp [ids, Level.chain, Level.nodeAmong, GraphNode.entry, GraphNode.exit, Function.comp_def]

theorem nodup_ids_chain (l : Level) (n : Nat) : (StaticGraph.mk (l.chain n)).ids.Nodup := by
  have hs : ∀ i, GraphNode.decisionId l.routine i ≠ "start" := fun i =>
    GraphNode.decisionId_ne (by decide)
  have he : ∀ i, GraphNode.decisionId l.routine i ≠ "end" := fun i =>
    GraphNode.decisionId_ne (by decide)
  have hlevels : ((List.range n).map (GraphNode.decisionId l.routine)).Nodup :=
    List.pairwise_map.mpr (List.Pairwise.imp
      (fun hij h => hij (GraphNode.decisionId_inj h)) List.nodup_range)
  rw [ids_chain]
  simp [List.nodup_append, hlevels, hs, he]

theorem mem_chain {m : GraphNode} : m ∈ l.chain n ↔
    m = .entry l.routine ∨ (∃ i < n, m = l.nodeAmong n i) ∨ m = .exit := by
  simp [Level.chain, eq_comm]

theorem children_chain {m : GraphNode} (hn : 0 < n) (hm : m ∈ l.chain n) (c : String)
    (hc : c ∈ m.children) : c ∈ (StaticGraph.mk (l.chain n)).ids := by
  have hid : ∀ i < n, GraphNode.decisionId l.routine i ∈ (StaticGraph.mk (l.chain n)).ids := by
    intro i hi
    rw [ids_chain]
    simp only [List.cons_append, List.mem_cons, List.mem_append, List.mem_map, List.mem_range]
    exact Or.inr (Or.inl ⟨i, hi, rfl⟩)
  rcases mem_chain.mp hm with rfl | ⟨i, hi, rfl⟩ | rfl
  · obtain rfl : c = GraphNode.decisionId l.routine 0 := by simpa [GraphNode.entry] using hc
    exact hid 0 hn
  · obtain ⟨hlt, rfl⟩ := Level.mem_children_nodeAmong.mp hc
    exact hid (i + 1) hlt
  · simp [GraphNode.exit] at hc

/-- In a chain no node is led to from a later one. -/
theorem pairwise_chain (l : Level) (n : Nat) :
    (l.chain n).Pairwise fun m m' => m.id ∉ m'.children := by
  have hlater : (List.range n).Pairwise fun i j =>
      (l.nodeAmong n i).id ∉ (l.nodeAmong n j).children := by
    refine List.pairwise_lt_range.imp fun {i j} hij hc => ?_
    have := GraphNode.decisionId_inj (Level.mem_children_nodeAmong.mp hc).2
    omega
  have hstart : ∀ i, "start" ∉ (l.nodeAmong n i).children := fun i hc =>
    GraphNode.decisionId_ne (by decide) (Level.mem_children_nodeAmong.mp hc).2.symm
  rw [Level.chain, List.cons_append]
  refine List.pairwise_cons.mpr ⟨fun m hm => ?_, List.pairwise_append.mpr
    ⟨List.pairwise_map.mpr hlater, List.pairwise_singleton _ _, fun _ _ m hm => ?_⟩⟩
  · rcases List.mem_append.mp hm with hm | hm
    · obtain ⟨i, -, rfl⟩ := List.mem_map.mp hm
      exact hstart i
    · obtain rfl := List.mem_singleton.mp hm
      exact List.not_mem_nil
  · obtain rfl := List.mem_singleton.mp hm
    exact List.not_mem_nil

/-- In a chain every level leads to a later one. -/
theorem forward_chain (l : Level) (n : Nat) : Forward (l.chain n) := by
  refine forward_of_pairwise (pairwise_chain l n) fun m hm hc => ?_
  rcases mem_chain.mp hm with rfl | ⟨i, -, rfl⟩ | rfl
  · have he : "start" = GraphNode.decisionId l.routine 0 := List.mem_singleton.mp hc
    exact GraphNode.decisionId_ne (by decide) he.symm
  · have := GraphNode.decisionId_inj (Level.mem_children_nodeAmong.mp hc).2
    omega
  · exact List.not_mem_nil hc

theorem count_chain (l : Level) (n : Nat) : (StaticGraph.mk (l.chain n)).count .start = 1 ∧
    (StaticGraph.mk (l.chain n)).count .terminal = 1 := by
  simp [count, Level.chain, List.countP_append, List.countP_map,
    Function.comp_def, Level.nodeAmong, GraphNode.entry, GraphNode.exit]

theorem validate_chain (l : Level) (n : Nat) (hn : 0 < n) :
    (StaticGraph.mk (l.chain n)).validate = .ok () :=
  validate_eq_ok (count_chain l n).1 (count_chain l n).2 (nodup_ids_chain l n)
    (fun _ hm c hc => children_chain hn hm c hc) (forward_chain l n)

/-- The number of levels of a routine: one without calls of itself, and otherwise the depth that is
asked for, between one and ten. -/
def levelCount (r : Routine) (o : GraphOptions) : Nat :=
  if (r.callLines r.name).length = 0 then 1 else min (max o.maxDepth 1) 10

theorem levelCount_pos (r : Routine) (o : GraphOptions) : 0 < levelCount r o := by
  unfold levelCount
  split <;> omega

theorem ofRoutine_eq (text : List Char) (r : Routine) (o : GraphOptions) :
    ofRoutine text r o = .ok ⟨(Level.ofRoutine text r).chain (levelCount r o)⟩ := by
  have hlimit : 0 < GraphOptions.clamp o.maxDepth := by
    unfold GraphOptions.clamp
    omega
  have hnodes : (Unrolling.unroll (.ofRoutine text r) (GraphOptions.clamp o.maxDepth) 0
      ⟨[], empty.push (.entry r.name)⟩).graph.push .exit =
        ⟨(Level.ofRoutine text r).chain (levelCount r o)⟩ :=
    nodes_unroll (.ofRoutine text r) _ hlimit
  have hvalid := validate_chain (.ofRoutine text r) (levelCount r o) (levelCount_pos r o)
  rw [← hnodes] at hvalid ⊢
  simp only [ofRoutine, hvalid]

variable {r : Routine} {s : Snippet} {source : String} {o : GraphOptions} {f : Fault}

theorem ofSource_of_broken (h : Snippet.read source = .error f) :
    ofSource source o = .error (.broken f) := by
  unfold ofSource
  simp only [h]
  rfl

theorem ofSource_of_none (h : Snippet.read source = .ok s) (hs : s.backtracking? = none) :
    ofSource source o = .error .noBacktracking := by
  unfold ofSource
  simp only [h, hs]
  rfl

theorem ofSource_of_some (h : Snippet.read source = .ok s) (hs : s.backtracking? = some r) :
    ofSource source o = ofRoutine s.text r o := by
  unfold ofSource
  simp only [h, hs]

/-- No source text leads to a graph that fails its checks. -/
theorem ofSource_ne_malformed (source : String) (o : GraphOptions) (e : GraphError) :
    ofSource source o ≠ .error (.malformed e) := by
  cases h : Snippet.read source with
  | error f => simp [ofSource_of_broken h]
  | ok s =>
    cases hs : s.backtracking? with
    | none => simp [ofSource_of_none h hs]
    | some r => simp [ofSource_of_some h hs, ofRoutine_eq]

/-- The graph of a routine is a chain: the entry leads to the first level, every level to the next
one, and neither the last level nor the exit to anything. All levels have the declared parameters
and the returned texts, with one mark for each condition under which the routine may return. The
graph passes all checks, so that no analysis ends with a malformed graph. -/
theorem ofRoutine_closed_form (text : List Char) (r : Routine) (o : GraphOptions) :
    (∃ g, ofRoutine text r o = .ok g ∧ g.validate = .ok () ∧ g.nodes =
      ⟨"start", "Start", .start, [], [], [GraphNode.decisionId r.name 0]⟩ ::
        (List.range (levelCount r o)).map (fun i =>
          { id := GraphNode.decisionId r.name i
            label := "Recursion " ++ toString i
            kind := .decision
            parameters := r.signature.paramDeclarations text
            returnExpressions :=
              r.returnTexts text ++ List.replicate r.guardLines.length "backtrack"
            children :=
              if i + 1 < levelCount r o then [GraphNode.decisionId r.name (i + 1)] else [] }) ++
        [⟨"end", "End", .terminal, [], [], []⟩]) ∧
    (∀ e, ofRoutine text r o ≠ .error (.malformed e)) ∧
    ∀ source e, ofSource source o ≠ .error (.malformed e) := by
  refine ⟨⟨_, ofRoutine_eq text r o, validate_chain _ _ (levelCount_pos r o), rfl⟩, fun e => ?_,
    fun source e => ofSource_ne_malformed source o e⟩
  simp [ofRoutine_eq]

end StaticGraph

end Retrace
