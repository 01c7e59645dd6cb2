import Mathlib.Data.Prod.Basic
import Retrace.Graph.Dot
import Retrace.Graph.Validity
import Retrace.Proofs.Text.Tells

/-! A drawing shows all of a graph: from its text the nodes can be read back one by one, whatever
their texts contain. -/
namespace Retrace

open Text

variable {s t : String} {u v : List Char} {n m : GraphNode} {ns ms : List GraphNode}

/-! ### Texts inside quotes and tables -/

theorem replaceMark_toList (mark : Char) (other s : String) : (replaceMark mark other s).toList =
    s.toList.flatMap fun c => if c = mark then other.toList else [c] :=
  String.toList_ofList

/-- What stands for a character inside quotes. -/
def quotedChar (c : Char) : List Char :=
  if c = '\\' then ['\\', '\\'] else if c = '"' then ['\\', '"'] else [c]

/-- What stands for a character inside a table. -/
def tableChar (c : Char) : List Char :=
  if c = '&' then "&amp;".toList
  else if c = '<' then "&lt;".toList
  else if c = '>' then "&gt;".toList
  else if c = '"' then "&quot;".toList
  else [c]

/-- The backslashes that come before quotes are not doubled. -/
theorem quotedText_toList (s : String) : (quotedText s).toList = s.toList.flatMap quotedChar := by
  simp only [quotedText, replaceMark_toList, List.flatMap_assoc]
  congr 1
  funext c
  unfold quotedChar
  split_ifs with hb hq
  · rfl
  · subst hq
    rfl
  · simp [hq]

/-- The names of marks are not changed by the replacements after them. -/
theorem tableText_toList (s : String) : (tableText s).toList = s.toList.flatMap tableChar := by
  simp only [tableText, replaceMark_toList, List.flatMap_assoc]
  congr 1
  funext c
  unfold tableChar
  split_ifs with ha hl hg hq
  · rfl
  · subst hl
    rfl
  · subst hg
    rfl
  · subst hq
    rfl
  · simp only [List.flatMap_singleton, if_neg hl, if_neg hg, if_neg hq]

theorem tells_quotedChar : Tells quotedChar id := by
  intro c d r s h
  unfold quotedChar at h
  split_ifs at h <;> grind

theorem tells_tableChar : Tells tableChar id := by
  intro c d r s h
  unfold tableChar at h
  split_ifs at h <;> grind [List.append_cancel_left]

theorem head?_quotedChar (c : Char) (u : List Char) : (quotedChar c ++ u).head? ≠ some '"' := by
  unfold quotedChar
  split_ifs <;> simp_all

theorem head?_tableChar (c : Char) (u : List Char) : (tableChar c ++ u).head? ≠ some '<' := by
  unfold tableChar
  split_ifs <;> simp_all

/-- A quoted text ends at the first quote that it does not itself announce. -/
theorem quotedText_cancel (hu : u.head? = some '"') (hv : v.head? = some '"')
    (h : (quotedText s).toList ++ u = (quotedText t).toList ++ v) : s = t ∧ u = v := by
  rw [quotedText_toList, quotedText_toList] at h
  obtain ⟨hst, huv⟩ := tells_quotedChar.flatMap (·.head? = some '"') head?_quotedChar hu hv h
  rw [List.map_id, List.map_id] at hst
  exact ⟨String.toList_inj.mp hst, huv⟩

/-- A text in a table ends at the first opening bracket. -/
theorem tableText_cancel (hu : u.head? = some '<') (hv : v.head? = some '<')
    (h : (tableText s).toList ++ u = (tableText t).toList ++ v) : s = t ∧ u = v := by
  rw [tableText_toList, tableText_toList] at h
  obtain ⟨hst, huv⟩ := tells_tableChar.flatMap (·.head? = some '<') head?_tableChar hu hv h
  rw [List.map_id, List.map_id] at hst
  exact ⟨String.toList_inj.mp hst, huv⟩

/-! ### Rows -/

/-- A row of a table: a heading, or a text under one. -/
inductive Row where
  | heading (text : String)
  | entry (text : String)

namespace Row

def written : Row → String
  | heading text => GraphNode.heading (tableText text)
  | entry text => GraphNode.row text

theorem heading_toList (t : String) (u : List Char) : (heading t).written.toList ++ u =
    "<tr><td>".toList ++
      ("<b>".toList ++ ((tableText t).toList ++ ("</b></td></tr>".toList ++ u))) := by
  have hopen : "<tr><td><b>".toList = "<tr><td>".toList ++ "<b>".toList := by decide
  simp only [written, GraphNode.heading, String.toList_append, hopen, List.append_assoc]

theorem entry_toList (t : String) (u : List Char) : (entry t).written.toList ++ u =
    "<tr><td>".toList ++ ((tableText t).toList ++ ("</td></tr>".toList ++ u)) := by
  simp only [written, GraphNode.row, String.toList_append, List.append_assoc]

/-- The end of an entry is no start of a heading, whatever the text of the entry. -/
theorem tableText_ne_bold (t : String) (u v : List Char) :
    (tableText t).toList ++ ("</td></tr>".toList ++ u) ≠ "<b>".toList ++ v := by
  intro h
  have hempty : (tableText "").toList = [] := by rw [tableText_toList]; rfl
  have hsame : (tableText t).toList ++ ("</td></tr>".toList ++ u) =
      (tableText "").toList ++ ("<b>".toList ++ v) := by rw [h, hempty, List.nil_append]
  obtain ⟨-, hend⟩ := tableText_cancel (by simp) (by simp) hsame
  simp at hend

theorem tells_written : Tells (fun row : Row => row.written.toList) id := by
  intro a b r s h
  cases a with
  | heading t =>
    cases b with
    | heading t' =>
      simp only [heading_toList] at h
      obtain ⟨rfl, hrest⟩ := tableText_cancel (by simp) (by simp)
        (List.append_cancel_left (List.append_cancel_left h))
      exact ⟨rfl, List.append_cancel_left hrest⟩
    | entry t' =>
      simp only [heading_toList, entry_toList] at h
      exact absurd (List.append_cancel_left h).symm (tableText_ne_bold t' _ _)
  | entry t =>
    cases b with
    | heading t' =>
      simp only [heading_toList, entry_toList] at h
      exact absurd (List.append_cancel_left h) (tableText_ne_bold t _ _)
    | entry t' =>
      simp only [entry_toList] at h
      obtain ⟨rfl, hrest⟩ := tableText_cancel (by simp) (by simp) (List.append_cancel_left h)
      exact ⟨rfl, List.append_cancel_left hrest⟩

theorem head_written (row : Row) (u : List Char) :
    (row.written.toList ++ u).take 2 = ['<', 't'] := by
  cases row with
  | heading t =>
    rw [heading_toList]
    simp
  | entry t =>
    rw [entry_toList]
    simp

/-- The rows of a section: a heading with entries, or none at all. -/
def ofSection (head : String) (texts : List String) : List Row :=
  if texts = [] then [] else heading head :: texts.map entry

def ofNode (n : GraphNode) : List Row :=
  heading n.label ::
    (ofSection "Parameters:" n.parameters ++ ofSection "Returns:" n.returnExpressions)

theorem ofSection_toList {head : String} (hh : tableText head = head) (texts : List String) :
    (GraphNode.rows head texts).toList =
      (ofSection head texts).flatMap fun row => row.written.toList := by
  cases texts with
  | nil => rfl
  | cons t ts =>
    simp [GraphNode.rows, ofSection, written, hh, List.flatMap_map]

theorem table_toList (n : GraphNode) : n.table.toList =
    "<table border='0' cellborder='1' cellspacing='0' cellpadding='4'>".toList ++
      ((ofNode n).flatMap (fun row => row.written.toList) ++ "</table>".toList) := by
  have hp := ofSection_toList (show tableText "Parameters:" = "Parameters:" by decide) n.parameters
  have hr := ofSection_toList (show tableText "Returns:" = "Returns:" by decide) n.returnExpressions
  unfold GraphNode.table
  simp only [String.toList_append, hp, hr, ofNode, List.flatMap_cons, List.flatMap_append,
    List.append_assoc, written]

theorem ofSection_nil (head : String) : ofSection head [] = [] := rfl

theorem ofSection_cons (head t : String) (ts : List String) :
    ofSection head (t :: ts) = heading head :: (t :: ts).map entry := rfl

theorem head?_ofSection (head : String) (ts : List String) (t : String) :
    (ofSection head ts).head? ≠ some (entry t) := by
  cases ts with
  | nil => simp [ofSection_nil]
  | cons => simp [ofSection_cons]

/-- A section tells its content when what comes after it has no entry in front, and no heading of
the same text. -/
theorem ofSection_cancel {head : String} {ps qs : List String} {r s : List Row}
    (hr : ∀ t, r.head? ≠ some (entry t)) (hs : ∀ t, s.head? ≠ some (entry t))
    (hrh : r.head? ≠ some (heading head)) (hsh : s.head? ≠ some (heading head))
    (h : ofSection head ps ++ r = ofSection head qs ++ s) : ps = qs ∧ r = s := by
  cases ps with
  | nil =>
    cases qs with
    | nil => exact ⟨rfl, h⟩
    | cons q qs =>
      rw [ofSection_nil, List.nil_append] at h
      exact absurd (congrArg List.head? h) hrh
  | cons p ps =>
    cases qs with
    | nil =>
      rw [ofSection_nil, List.nil_append] at h
      exact absurd (congrArg List.head? h.symm) hsh
    | cons q qs =>
      have hentry : Function.Injective entry := fun _ _ => Row.entry.inj
      exact map_cancel hentry (fun r => ∀ t, r.head? ≠ some (entry t))
        (fun t r hover => hover t rfl) hr hs (List.cons.inj h).2

/-- The rows of a node show its label, its parameters and its return expressions. -/
theorem ofNode_inj {n m : GraphNode} (h : ofNode n = ofNode m) : n.label = m.label ∧
    n.parameters = m.parameters ∧ n.returnExpressions = m.returnExpressions := by
  have hhead : ∀ ts, (ofSection "Returns:" ts).head? ≠ some (heading "Parameters:") := by
    intro ts
    cases ts with
    | nil => simp [ofSection_nil]
    | cons => simp [ofSection_cons]
  obtain ⟨hlabel, hrows⟩ := List.cons.inj h
  obtain ⟨hparams, hreturns⟩ := ofSection_cancel (head?_ofSection _ _) (head?_ofSection _ _)
    (hhead _) (hhead _) hrows
  rw [← List.append_nil (ofSection _ n.returnExpressions),
    ← List.append_nil (ofSection _ m.returnExpressions)] at hreturns
  obtain ⟨hrets, -⟩ := ofSection_cancel (by simp) (by simp) (by simp) (by simp) hreturns
  exact ⟨Row.heading.inj hlabel, hparams, hrets⟩

end Row

/-! ### Lines -/

namespace GraphNode

theorem color_inj {k k' : NodeKind} (h : k.color = k'.color) : k = k' := by
  revert h
  cases k <;> cases k' <;> decide

theorem length_color (k : NodeKind) : k.color.toList.length = 7 := by
  cases k <;> decide

/-- What a line declares of a node: all but its children. -/
def face (n : GraphNode) : GraphNode := { n with children := [] }

theorem id_face (n : GraphNode) : n.face.id = n.id := rfl

theorem eq_of_face (hf : n.face = m.face) (hc : n.children = m.children) : n = m :=
  calc n = { n.face with children := n.children } := rfl
    _ = { m.face with children := m.children } := by rw [hf, hc]
    _ = m := rfl

theorem dotNode_toList (n : GraphNode) (u : List Char) : n.dotNode.toList ++ u =
    "    \"".toList ++ ((quotedText n.id).toList ++ ("\" [fillcolor=\"".toList ++
      (n.kind.color.toList ++
        ("\", label=<".toList ++ (n.table.toList ++ (">];\n".toList ++ u)))))) := by
  unfold dotNode
  simp only [String.toList_append, List.append_assoc]

theorem dotEdge_toList (parent child : String) (u : List Char) :
    (dotEdge parent child).toList ++ u =
      "    \"".toList ++ ((quotedText parent).toList ++ ("\" -> \"".toList ++
        ((quotedText child).toList ++ ("\";\n".toList ++ u)))) := by
  unfold dotEdge
  simp only [String.toList_append, List.append_assoc]

/-- Tables end where no row comes. -/
theorem table_cancel (h : n.table.toList ++ u = m.table.toList ++ v) :
    n.label = m.label ∧ n.parameters = m.parameters ∧
      n.returnExpressions = m.returnExpressions ∧ u = v := by
  simp only [Row.table_toList, List.append_assoc] at h
  obtain ⟨hrows, hrest⟩ := Row.tells_written.flatMap
    (fun r => r.take 2 = ['<', '/']) (fun row r => by simp [Row.head_written]) (by simp) (by simp)
    (List.append_cancel_left h)
  rw [List.map_id, List.map_id] at hrows
  obtain ⟨hlabel, hparams, hreturns⟩ := Row.ofNode_inj hrows
  exact ⟨hlabel, hparams, hreturns, List.append_cancel_left hrest⟩

theorem tells_dotNode : Tells (fun n : GraphNode => n.dotNode.toList) face := by
  intro n m u v h
  simp only [dotNode_toList] at h
  obtain ⟨hid, h⟩ := quotedText_cancel (by simp) (by simp) (List.append_cancel_left h)
  obtain ⟨hcolor, h⟩ := List.append_inj (List.append_cancel_left h)
    (by rw [length_color, length_color])
  obtain ⟨hlabel, hparams, hreturns, hrest⟩ := table_cancel (List.append_cancel_left h)
  have hkind := color_inj (String.toList_inj.mp hcolor)
  exact ⟨by simp only [face, hid, hlabel, hkind, hparams, hreturns], List.append_cancel_left hrest⟩

end GraphNode

namespace StaticGraph

variable {g h : StaticGraph}

theorem tells_dotEdge :
    Tells (fun e : String × String => (GraphNode.dotEdge e.1 e.2).toList) id := by
  rintro ⟨p, c⟩ ⟨p', c'⟩ u v h
  simp only [GraphNode.dotEdge_toList] at h
  obtain ⟨hp, hchild⟩ := quotedText_cancel (by simp) (by simp) (List.append_cancel_left h)
  obtain ⟨hc, hrest⟩ := quotedText_cancel (by simp) (by simp) (List.append_cancel_left hchild)
  exact ⟨Prod.ext hp hc, List.append_cancel_left hrest⟩

/-- The references of nodes, as pairs of a parent and a child. -/
def pairs (ns : List GraphNode) : List (String × String) :=
  ns.flatMap fun n => n.children.map fun c => (n.id, c)

theorem toDot_toList (g : StaticGraph) : g.toDot.toList =
    "digraph backtracking \x7b\n".toList ++
      ("    node [shape=rectangle, style=filled, fontname=\"Helvetica\"];\n".toList ++
        (g.nodes.flatMap (fun n => n.dotNode.toList) ++
          ((pairs g.nodes).flatMap (fun e => (GraphNode.dotEdge e.1 e.2).toList) ++
            "\x7d\n".toList))) := by
  unfold toDot
  simp only [String.toList_append, String.toList_join, List.flatMap_map, List.append_assoc, pairs,
    List.flatMap_assoc, GraphNode.dotEdges]

/-- The lines of edges and the end of a drawing. -/
def Rest (r : List Char) : Prop :=
  ∃ es : List (String × String),
    r = es.flatMap (fun e => (GraphNode.dotEdge e.1 e.2).toList) ++ "\x7d\n".toList

/-- The line of a node is not taken for the line of an edge or for the end, whatever its id. -/
theorem not_rest_dotNode (n : GraphNode) (r : List Char) : ¬ Rest (n.dotNode.toList ++ r) := by
  rintro ⟨es, h⟩
  rw [GraphNode.dotNode_toList] at h
  cases es with
  | nil => simp at h
  | cons e es =>
    rw [List.flatMap_cons, List.append_assoc, GraphNode.dotEdge_toList] at h
    obtain ⟨-, hrest⟩ := quotedText_cancel (by simp) (by simp) (List.append_cancel_left h)
    simp at hrest

theorem pairs_cons (n : GraphNode) (ns : List GraphNode) :
    pairs (n :: ns) = n.children.map (fun c => (n.id, c)) ++ pairs ns := rfl

theorem fst_of_mem_pairs {e : String × String} (h : e ∈ pairs ns) : e.1 ∈ ns.map GraphNode.id := by
  obtain ⟨n, hn, he⟩ := List.mem_flatMap.mp h
  obtain ⟨c, -, rfl⟩ := List.mem_map.mp he
  exact List.mem_map_of_mem hn

/-- When ids are distinct, the nodes are known from what their lines declare and from all their
references one after another. -/
theorem nodes_of_pairs (hn : (ns.map GraphNode.id).Nodup)
    (hf : ns.map GraphNode.face = ms.map GraphNode.face) (hp : pairs ns = pairs ms) : ns = ms := by
  induction ns generalizing ms with
  | nil => exact (List.map_eq_nil_iff.mp hf.symm).symm
  | cons n ns ih =>
    cases ms with
    | nil => simp at hf
    | cons m ms =>
      obtain ⟨hnm, hfaces⟩ := List.cons.inj hf
      have hid := congrArg GraphNode.id hnm
      rw [GraphNode.id_face, GraphNode.id_face] at hid
      have hids : ms.map GraphNode.id = ns.map GraphNode.id := by
        have hsame := congrArg (List.map GraphNode.id) hfaces
        simpa [Function.comp_def, GraphNode.id_face] using hsame.symm
      obtain ⟨hfresh, hn⟩ := List.nodup_cons.mp hn
      rw [pairs_cons, pairs_cons, ← hid] at hp
      obtain ⟨hchildren, hrest⟩ := map_cancel (Prod.mk_right_injective n.id)
        (fun r => ∀ e ∈ r, e.1 ≠ n.id)
        (fun c r hover => hover (n.id, c) List.mem_cons_self rfl)
        (fun e he hep => hfresh (hep ▸ fst_of_mem_pairs he))
        (fun e he hep => hfresh (hids ▸ hep ▸ fst_of_mem_pairs he)) hp
      rw [GraphNode.eq_of_face hnm hchildren, ih hn hfaces hrest]

/-- Graphs have the same drawing only if they are the same graph, provided that the ids of one of
them are distinct; it does not matter what ids, labels, parameters, return expressions and children
contain. -/
theorem toDot_inj (hg : g.ids.Nodup) : g.toDot = h.toDot ↔ g = h := by
  refine ⟨fun hdot => ?_, fun hgh => hgh ▸ rfl⟩
  have htext := congrArg String.toList hdot
  rw [toDot_toList, toDot_toList] at htext
  obtain ⟨hfaces, hrest⟩ := GraphNode.tells_dotNode.flatMap Rest not_rest_dotNode ⟨_, rfl⟩ ⟨_, rfl⟩
    (List.append_cancel_left (List.append_cancel_left htext))
  obtain ⟨hpairs, -⟩ := tells_dotEdge.flatMap (fun r => r.head? = some (Char.ofNat 125))
    (fun e r hover => by simp [GraphNode.dotEdge_toList] at hover) (by simp) (by simp) hrest
  rw [List.map_id, List.map_id] at hpairs
  have hnodes := nodes_of_pairs hg hfaces hpairs
  cases g
  cases h
  exact congrArg StaticGraph.mk hnodes

/-- A graph of one node with parameters. -/
def sampleDrawn (id : String) (parameters : List String) : StaticGraph :=
  ⟨[⟨id, "<b>", .decision, parameters, [], [id, "\"]; \"x"]⟩]⟩

/-- The end of a row in a parameter does not make it two parameters. -/
theorem toDot_sampleDrawn_ne : (sampleDrawn "\\\"" ["a</td></tr><tr><td>b"]).ids.Nodup ∧
    (sampleDrawn "\\\"" ["a</td></tr><tr><td>b"]).toDot ≠
      (sampleDrawn "\\\"" ["a", "b"]).toDot := by
  have hd : (sampleDrawn "\\\"" ["a</td></tr><tr><td>b"]).ids.Nodup := by decide
  exact ⟨hd, (toDot_inj hd).not.mpr (by decide)⟩

end StaticGraph

end Retrace
