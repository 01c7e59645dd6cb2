import Mathlib.Data.List.Pairwise
import Retrace.Proofs.Source.Order.Items
import Retrace.Source.Routine

/-! The lines of calls are told in the order of a walk through the tree. It is the order of the text
unless a node displaces a call: a method that is named further down than a call before it, or a part
that is visited before what stands in front of it. -/
namespace Retrace.Source

open Source.Parser Node

variable {n m : Node} {name source : String} {s : Snippet} {r : Routine} {line x : Nat}

/-! ### The whole text -/

instance ordered_grammar (k : Nat) : (grammar k).Ordered := by
  induction k with
  | zero =>
    have hfails {α : Type} [Holds α] : Laid (fail .noExpression : Parser α) := ⟨.fails⟩
    exact {
      expression := fun _ => hfails
      early := hfails
      unary := fun _ => hfails
      climb := fun _ _ _ => Lays.fails (p := fail .noExpression)
      type := fun _ => hfails
      bound := fun _ => hfails
      pattern := hfails
      statements := hfails
      item := hfails
      namedFields := hfails
      useTree := fun _ => Moves.of_fails (p := fail .noExpression) }
  | succ k ih => exact {
      expression := laid_expression
      early := laid_earlyExpression
      unary := laid_unary
      climb := lays_climb
      type := laid_type
      bound := laid_bound
      pattern := laid_pattern
      statements := laid_statements
      item := laid_item
      namedFields := laid_namedFields
      useTree := moves_useTree }

instance laid_items (k : Nat) : Laid (do
    let attributes ← innerAttributes (grammar k)
    return attributes ++ (← Parser.all (grammar k).item)) where
  laid := .bind fun attributes => .bind fun items => .pure (by simp)

/-- The items of a text stand one after the other. -/
theorem row_items (h : Snippet.read source = .ok s) : ∃ hi, Row 1 hi s.items := by
  unfold Snippet.read at h
  dsimp only at h
  cases hread : Source.read _ (Source.body source.toList) with
  | error f => rw [hread] at h; cases h
  | ok items =>
    rw [hread] at h
    cases h
    unfold Source.read lex at hread
    cases htokens : tokens (Source.body source.toList) with
    | error place => rw [htokens] at hread; cases hread
    | ok ts =>
      rw [htokens] at hread
      obtain ⟨hi, hb⟩ := between_tokens htokens
      have hrow := row_of_complete (h := laid_items (8 * Token.sizes ts + 64)) hb hread
      rw [nodes_nodes] at hrow
      exact ⟨hi, hrow⟩

namespace Node

theorem mem_preorder_true :
    m ∈ n.preorder true ↔ m = n ∨ ∃ c ∈ n.children, m ∈ c.preorder true := by
  rw [preorder_true, List.mem_cons, List.mem_flatMap]

mutual
/-- What is below a node below another one is below that one. -/
theorem preorder_subset : (n : Node) → m ∈ n.preorder true → m.preorder true ⊆ n.preorder true
  | mk form span children, h => by
    rw [preorder_true (mk form span children)] at h ⊢
    rcases List.mem_cons.mp h with rfl | h
    · rw [preorder_true]
      exact List.Subset.refl _
    · exact List.Subset.trans (flatMap_preorder_subset children h) (List.subset_cons_self _ _)

theorem flatMap_preorder_subset : (ns : List Node) → m ∈ ns.flatMap (preorder true) →
    m.preorder true ⊆ ns.flatMap (preorder true)
  | [], h => nomatch h
  | n :: ns, h => by
    rw [List.flatMap_cons] at h ⊢
    rcases List.mem_append.mp h with h | h
    · exact List.Subset.trans (preorder_subset n h) (List.subset_append_left _ _)
    · exact List.Subset.trans (flatMap_preorder_subset ns h) (List.subset_append_right _ _)
end

mutual
/-- A walk that passes over arguments meets nothing else. -/
theorem preorder_false_subset : (n : Node) → n.preorder false ⊆ n.preorder true
  | mk form span children => by
    rw [preorder_eq, preorder_true]
    exact List.cons_subset_cons _ (nodesAmong_subset _ children)

theorem nodesAmong_subset (only : Bool) : (ns : List Node) →
    nodesAmong only false ns ⊆ ns.flatMap (preorder true)
  | [] => List.Subset.refl _
  | n :: ns => by
    rw [nodesAmong, List.flatMap_cons, List.flatMap_cons]
    refine List.append_subset.mpr ⟨?_, ?_⟩
    · split
      · exact List.nil_subset _
      · exact List.Subset.trans (preorder_false_subset n) (List.subset_append_left _ _)
    · exact List.Subset.trans (nodesAmong_subset only ns) (List.subset_append_right _ _)
end

/-! ### Displaced calls -/

/-- A node displaces a call of a name: it is the call of a method with the name that stands on a
later line than a call below it, or it has a child that is visited before another one in spite of a
call in it on a later line. -/
inductive Displaces (n : Node) (name : String) : Prop
  | method {line x : Nat} {c : Node} (hn : n.form = .method name line) (hc : c ∈ n.children)
      (hx : x ∈ c.callLines name) (hlt : x < line)
  | lifted {x y : Nat} {c d : Node} (hcd : [c, d].Sublist n.children) (hl : n.lifts c = true)
      (hx : x ∈ c.callLines name) (hy : y ∈ d.callLines name) (hlt : y < x)

/-- The calls of a name at a node and below each of its children are told in order. -/
structure InOrder (n : Node) (name : String) : Prop where
  self : ∀ x ∈ n.callLine? name, ∀ c ∈ n.children, ∀ y ∈ c.callLines name, x ≤ y
  children : n.children.Pairwise fun c d =>
    ∀ x ∈ c.callLines name, ∀ y ∈ d.callLines name, x ≤ y

theorem callLines_eq (n : Node) (name : String) : n.callLines name =
    (n.callLine? name).toList ++ n.children.flatMap (callLines · name) := by
  rw [callLines, preorder_true, List.filterMap_cons, List.filterMap_flatMap]
  cases n.callLine? name <;> rfl

mutual
/-- The lines of the calls below a node are in order if they are at each node there. -/
theorem pairwise_callLines_iff (name : String) : (n : Node) →
    ((n.callLines name).Pairwise (· ≤ ·) ↔ ∀ m ∈ n.preorder true, m.InOrder name)
  | mk form span children => by
    have hc := pairwise_callLinesAmong_iff name children
    have hself : ((mk form span children).callLine? name).toList.Pairwise (· ≤ ·) := by
      cases (mk form span children).callLine? name <;> simp
    rw [callLines_eq, List.pairwise_append, List.pairwise_flatMap, Node.children, hc, preorder_true,
      List.forall_mem_cons]
    simp only [hself, true_and, Option.mem_toList, List.mem_flatMap, Node.children]
    constructor
    · rintro ⟨⟨hbelow, hchildren⟩, hself⟩
      exact ⟨⟨fun x hx c hc y hy => hself x hx y ⟨c, hc, hy⟩, hchildren⟩,
        fun m ⟨c, hc, hm⟩ => hbelow c hc m hm⟩
    · rintro ⟨⟨hself, hchildren⟩, hbelow⟩
      exact ⟨⟨fun c hc m hm => hbelow m ⟨c, hc, hm⟩, hchildren⟩,
        fun x hx y ⟨c, hc, hy⟩ => hself x hx c hc y hy⟩

theorem pairwise_callLinesAmong_iff (name : String) : (ns : List Node) →
    ((∀ n ∈ ns, (n.callLines name).Pairwise (· ≤ ·)) ↔
      ∀ n ∈ ns, ∀ m ∈ n.preorder true, m.InOrder name)
  | [] => by simp
  | n :: ns => by
    rw [List.forall_mem_cons, List.forall_mem_cons, pairwise_callLines_iff name n,
      pairwise_callLinesAmong_iff name ns]
end

theorem callLine?_eq_some : n.callLine? name = some line ↔
    n.form = .method name line ∨ n.form = .call (some name) ∧ n.line = line := by
  obtain ⟨form, span, children⟩ := n
  unfold callLine?
  cases form with
  | call callee => cases callee <;> simp [Node.form]
  | method => simp [Node.form]
  | _ => simp [Node.form]

theorem site?_of_callLine (h : n.callLine? name = some line) : n.site? = some line := by
  rcases callLine?_eq_some.mp h with hn | ⟨hn, rfl⟩ <;> rw [site?, hn]

theorem mem_lines_of_callLines (h : x ∈ n.callLines name) : x ∈ n.lines := by
  obtain ⟨m, hm, hx⟩ := List.mem_filterMap.mp h
  exact List.mem_filterMap.mpr ⟨m, hm, site?_of_callLine hx⟩

theorem Tidy.inOrder_iff (h : n.Tidy) (name : String) : n.InOrder name ↔ ¬n.Displaces name := by
  constructor
  · rintro ⟨hself, hchildren⟩ hd
    cases hd with
    | method hn hc hx hlt =>
      exact Nat.not_le.mpr hlt (hself _ (callLine?_eq_some.mpr (.inl hn)) _ hc _ hx)
    | lifted hcd hl hx hy hlt =>
      exact Nat.not_le.mpr hlt (List.pairwise_iff_forall_sublist.mp hchildren hcd _ hx _ hy)
  -- Only the call of a method and a child that is lifted may stand after what is told later.
  · intro hd
    refine ⟨fun x hx c hc y hy => ?_, List.pairwise_iff_forall_sublist.mpr fun hcd x hx y hy => ?_⟩
    · rcases callLine?_eq_some.mp hx with hn | ⟨hn, rfl⟩
      · exact Nat.le_of_not_lt fun hlt => hd (.method hn hc hy hlt)
      · exact h.leads (by rw [hn]; rfl) c hc y (mem_lines_of_callLines hy)
    · refine Nat.le_of_not_lt fun hlt => ?_
      cases hl : n.lifts _ with
      | true => exact hd (.lifted hcd hl hx hy hlt)
      | false =>
        have hbefore := List.pairwise_iff_forall_sublist.mp h.children hcd hl
        exact Nat.not_le.mpr hlt
          (hbefore _ (mem_lines_of_callLines hx) _ (mem_lines_of_callLines hy))

end Node

/-- What is below the body of a routine is below an item. -/
theorem preorder_body_subset (hr : r ∈ s.routines) :
    ∃ item ∈ s.items, r.body.preorder true ⊆ item.preorder true := by
  obtain ⟨n, hn, hr⟩ := List.mem_filterMap.mp hr
  rw [preorderAll_eq] at hn
  obtain ⟨item, hitem, hn⟩ := List.mem_flatMap.mp hn
  have hbelow := preorder_subset item (preorder_false_subset item hn)
  refine ⟨item, hitem, preorder_subset item (hbelow ?_)⟩
  unfold routine? at hr
  split at hr
  · obtain ⟨body, hbody, rfl⟩ := Option.map_eq_some_iff.mp hr
    exact mem_preorder_true.mpr (.inr ⟨body, List.mem_of_getLast? hbody,
      mem_preorder_true.mpr (.inl rfl)⟩)
  · cases hr

/-- The lines that are told for the calls of a name in a routine are in the order of the text,
unless a node in it displaces a call of that name. -/
theorem calls_in_order_iff (h : Snippet.read source = .ok s) (hr : r ∈ s.routines)
    (name : String) : (r.callLines name).Pairwise (· ≤ ·) ↔
      ¬∃ n ∈ r.body.preorder true, n.Displaces name := by
  obtain ⟨hi, hrow⟩ := row_items h
  obtain ⟨item, hitem, hbody⟩ := preorder_body_subset hr
  have hlies := hrow.strewn.2 item hitem
  have htidy (n : Node) (hn : n ∈ r.body.preorder true) : n.Tidy := hlies.tidy n (hbody hn)
  rw [Routine.callLines, pairwise_callLines_iff]
  constructor
  · rintro hall ⟨n, hn, hd⟩
    exact ((htidy n hn).inOrder_iff name).mp (hall n hn) hd
  · intro hnone n hn
    exact ((htidy n hn).inOrder_iff name).mpr fun hd => hnone ⟨n, hn, hd⟩

/-- Calls of methods one below the other, calls in what an item declares and in its where clause, and
calls in arguments, one of them in those of a macro. -/
def chainedSource : String :=
  "fn walk(x: W) \x7b
    fn inner(y: [u8; size()])
      where [u8; size()]: Copy \x7b\x7d
    go(p!(go(1)),
      x.turn()
        .turn());
    go(2); \x7d"

theorem calls_in_order_chained : ∃ s, Snippet.read chainedSource = .ok s ∧ ∃ r ∈ s.routines,
    r.callLines "turn" = [6, 5] ∧ (∃ n ∈ r.body.preorder true, n.Displaces "turn") ∧
    r.callLines "size" = [3, 2] ∧ (∃ n ∈ r.body.preorder true, n.Displaces "size") ∧
    r.callLines "go" = [4, 4, 7] ∧ ¬∃ n ∈ r.body.preorder true, n.Displaces "go" := by
  have hfacts : (Snippet.read chainedSource).toOption.any (fun s => s.routines.any fun r =>
      r.callLines "turn" = [6, 5] ∧ r.callLines "size" = [3, 2] ∧
      r.callLines "go" = [4, 4, 7]) = true := by decide +kernel
  cases hs : Snippet.read chainedSource with
  | error f => rw [hs] at hfacts; cases hfacts
  | ok s =>
    rw [hs] at hfacts
    obtain ⟨r, hr, hlines⟩ := List.any_eq_true.mp hfacts
    obtain ⟨hturn, hsize, hgo⟩ := of_decide_eq_true hlines
    have hiff (name : String) := calls_in_order_iff hs hr name
    refine ⟨s, rfl, r, hr, hturn, ?_, hsize, ?_, hgo, (hiff "go").mp (hgo ▸ by decide)⟩
    · refine Classical.not_not.mp fun hnone => ?_
      exact absurd (hturn ▸ (hiff "turn").mpr hnone) (by decide)
    · refine Classical.not_not.mp fun hnone => ?_
      exact absurd (hsize ▸ (hiff "size").mpr hnone) (by decide)

end Retrace.Source
