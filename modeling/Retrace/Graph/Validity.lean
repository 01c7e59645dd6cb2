import Retrace.Graph.Basic
import Retrace.Graph.Multigraph
/-!
Well-formed graphs: one entry, one exit, no id twice, children that exist, and no way from a node
back to itself.
-/
namespace Retrace

inductive GraphError where
  | miscounted (kind : NodeKind) (count : Nat)
  | duplicateNode (id : String)
  | danglingChild (parent child : String)
  | cyclic
  deriving DecidableEq, Repr

namespace GraphError

/-- How a message names the kinds that are counted. -/
def kindName : NodeKind → String
  | .start => "Start"
  | .decision => "Decision"
  | .backtrack => "Backtrack"
  | .terminal => "End"

def message : GraphError → String
  | miscounted kind count =>
    "graph inconsistency: expected exactly one " ++ kindName kind ++ " node, found " ++
      toString count
  | duplicateNode id => "duplicate node id: '" ++ id ++ "'"
  | danglingChild parent child =>
    "node '" ++ parent ++ "' references missing child '" ++ child ++ "'"
  | cyclic => "graph inconsistency: child references form a cycle"

end GraphError

namespace StaticGraph

def count (g : StaticGraph) (kind : NodeKind) : Nat := g.nodes.countP fun n => n.kind == kind

/-- The first id that stood in the list before, given the ids seen. -/
def firstRepeated (seen : List String) : List String → Option String
  | [] => none
  | id :: ids => if id ∈ seen then some id else firstRepeated (id :: seen) ids

def ids (g : StaticGraph) : List String := g.nodes.map GraphNode.id

/-- The first reference to a node that does not exist, as parent and child. -/
def firstDangling (g : StaticGraph) : Option (String × String) :=
  g.nodes.findSome? fun n => (n.children.find? (· ∉ g.ids)).map fun c => (n.id, c)

/-- The references by the places of the nodes: an edge for each child of each node. -/
def edges (g : StaticGraph) : List (Fin g.ids.length × Fin g.ids.length) :=
  g.nodes.flatMap fun n => n.children.filterMap fun c => do
    return (← g.ids.finIdxOf? n.id, ← g.ids.finIdxOf? c)

/-- The references among the nodes as a directed graph. -/
def references (g : StaticGraph) : Multigraph := ⟨g.ids.length, g.edges⟩

/-- Checks that a graph is well-formed, with a test for cycles. -/
def validateWith (isCyclic : Multigraph → Bool) (g : StaticGraph) : Except GraphError Unit :=
  if g.count .start ≠ 1 then .error (.miscounted .start (g.count .start))
  else if g.count .terminal ≠ 1 then .error (.miscounted .terminal (g.count .terminal))
  else match firstRepeated [] g.ids with
    | some id => .error (.duplicateNode id)
    | none =>
      match g.firstDangling with
      | some (parent, child) => .error (.danglingChild parent child)
      | none => if isCyclic g.references then .error .cyclic else .ok ()

def validate (g : StaticGraph) : Except GraphError Unit := g.validateWith Multigraph.isCyclic

/-- A way from node to child of at least one step, by ids. -/
inductive Leads (g : StaticGraph) : String → String → Prop
  | child {n : GraphNode} {c : String} : n ∈ g.nodes → c ∈ n.children → Leads g n.id c
  | trans {a b c : String} : Leads g a b → Leads g b c → Leads g a c

structure WellFormed (g : StaticGraph) : Prop where
  oneStart : g.count .start = 1
  oneEnd : g.count .terminal = 1
  distinct : g.ids.Nodup
  resolved : ∀ n ∈ g.nodes, ∀ c ∈ n.children, c ∈ g.ids
  acyclic : ∀ id, ¬ Leads g id id

end StaticGraph

end Retrace
