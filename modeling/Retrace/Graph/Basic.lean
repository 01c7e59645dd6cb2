import Retrace.Json.Basic
/-!
Decision graphs: nodes in the order in which they were added, with the ids of their children.
-/
namespace Retrace

/-- The part a node plays. -/
inductive NodeKind where
  | start
  | decision
  | backtrack
  | terminal
  deriving DecidableEq, Repr

namespace NodeKind

def name : NodeKind → String
  | start => "start"
  | decision => "decision"
  | backtrack => "backtrack"
  | terminal => "end"

def all : List NodeKind := [start, decision, backtrack, terminal]

/-- The colour of a kind in a drawing. -/
def color : NodeKind → String
  | start => "#4CAF50"
  | terminal => "#F44336"
  | backtrack => "#FFC107"
  | decision => "#2196F3"

end NodeKind

/-- A node of a decision graph. -/
structure GraphNode where
  id : String
  label : String
  kind : NodeKind
  parameters : List String
  returnExpressions : List String
  children : List String
  deriving DecidableEq, Repr

namespace GraphNode

def decisionId (routine : String) (depth : Nat) : String := routine ++ "_" ++ toString depth

/-- The entry of a graph, which leads to the first node of a routine. -/
def entry (routine : String) : GraphNode :=
  ⟨"start", "Start", .start, [], [], [decisionId routine 0]⟩

def exit : GraphNode := ⟨"end", "End", .terminal, [], [], []⟩

def decision (routine : String) (depth : Nat) : GraphNode :=
  ⟨decisionId routine depth, "Recursion " ++ toString depth, .decision, [], [], []⟩

/-- The node as it is shown to a reader. -/
def display (n : GraphNode) : String := n.label ++ " (" ++ n.id ++ ")"

def toJson (n : GraphNode) : Json :=
  .record [("id", .text n.id), ("label", .text n.label), ("kind", .text n.kind.name),
    ("parameters", .texts n.parameters), ("returnExpressions", .texts n.returnExpressions),
    ("children", .texts n.children)]

end GraphNode

structure StaticGraph where
  nodes : List GraphNode
  deriving DecidableEq, Repr

namespace StaticGraph

def empty : StaticGraph := ⟨[]⟩

def push (g : StaticGraph) (n : GraphNode) : StaticGraph := ⟨g.nodes ++ [n]⟩

/-- The number of nodes, which is also the slot of the next one. -/
def size (g : StaticGraph) : Nat := g.nodes.length

/-- Adds a child to the node in a slot, if there is one. -/
def addChild (g : StaticGraph) (slot : Nat) (child : String) : StaticGraph :=
  ⟨g.nodes.modify slot fun n => { n with children := n.children ++ [child] }⟩

/-- The first node with an id. -/
def get? (g : StaticGraph) (id : String) : Option GraphNode := g.nodes.find? fun n => n.id == id

def toJson (g : StaticGraph) : Json := .list (g.nodes.map GraphNode.toJson)

end StaticGraph

end Retrace
