import Retrace.Graph.Validity
import Retrace.Source.Site
/-!
The decision graph of a backtracking routine. Its recursion is unrolled level by level down to a
bounded depth; every level has the same parameters and the same return expressions.
-/
namespace Retrace

open Source

/-- How deep a recursion is unrolled. -/
structure GraphOptions where
  maxDepth : Nat
  deriving DecidableEq, Repr

namespace GraphOptions

def default : GraphOptions := ⟨5⟩

/-- A depth in the range that is allowed. -/
def clamp (depth : Nat) : Nat := min (max depth 1) 10

/-- The options with a depth in the range that is allowed. -/
def ofDepth (depth : Nat) : GraphOptions := ⟨clamp depth⟩

def toJson (o : GraphOptions) : Json := .record [("maxDepth", .nat o.maxDepth)]

end GraphOptions

/-- What all levels of a recursion share. -/
structure Level where
  routine : String
  parameters : List String
  returnExpressions : List String
  selfCalls : Nat

namespace Level

/-- The mark for a condition under which a level may return early. -/
def backtrackMark : String := "backtrack"

def ofRoutine (text : List Char) (r : Routine) : Level :=
  { routine := r.name
    parameters := r.signature.paramDeclarations text
    returnExpressions := r.returnTexts text ++ List.replicate r.guardLines.length backtrackMark
    selfCalls := (r.callLines r.name).length }

/-- The node of a level, without children. -/
def node (l : Level) (depth : Nat) : GraphNode :=
  { GraphNode.decision l.routine depth with
    parameters := l.parameters, returnExpressions := l.returnExpressions }

end Level

/-- A graph that is being built, with the ids of the levels it has. -/
structure Unrolling where
  visited : List String
  graph : StaticGraph

namespace Unrolling

def forCalls (f : Unrolling → Unrolling) : Nat → Unrolling → Unrolling
  | 0, u => u
  | n + 1, u => forCalls f n (f u)

/-- Adds the level at a depth and, for each call in it, the level below, unless that is there
already or lies too deep. -/
def unroll (l : Level) (limit depth : Nat) (u : Unrolling) : Unrolling :=
  let id := GraphNode.decisionId l.routine depth
  if limit ≤ depth ∨ id ∈ u.visited then u
  else
    let slot := u.graph.size
    let child := GraphNode.decisionId l.routine (depth + 1)
    forCalls
      (fun u =>
        if h : limit ≤ depth + 1 ∨ child ∈ u.visited then u
        else unroll l limit (depth + 1) { u with graph := u.graph.addChild slot child })
      l.selfCalls ⟨id :: u.visited, u.graph.push (l.node depth)⟩
termination_by limit - depth
decreasing_by
  have : ¬ limit ≤ depth + 1 := fun hle => h (Or.inl hle)
  omega

end Unrolling

/-- Why there is no graph or no trace for a source text. -/
inductive AnalysisError where
  | broken (fault : Fault)
  | noBacktracking
  | noInstrumentation
  | malformed (error : GraphError)
  deriving DecidableEq, Repr

namespace AnalysisError

/-- A fault with its place, as it is shown to a reader. -/
def faultText (f : Fault) : String :=
  "syntax error at " ++ toString f.place.line ++ ":" ++ toString f.place.column ++ ": " ++ f.message

def message : AnalysisError → String
  | broken f => faultText f
  | noBacktracking =>
    "no backtracking routine found: expected a function that calls itself from inside a loop"
  | noInstrumentation =>
    "no capture_step! calls found: annotate the snippet with capture_step!(action, details, ...)"
  | malformed e => "graph invariant violated: " ++ e.message

end AnalysisError

namespace StaticGraph

def ofRoutine (text : List Char) (r : Routine) (o : GraphOptions) :
    Except AnalysisError StaticGraph := do
  let limit := GraphOptions.clamp o.maxDepth
  let first : Unrolling := ⟨[], empty.push (.entry r.name)⟩
  let g := ((Unrolling.unroll (.ofRoutine text r) limit 0 first).graph).push .exit
  match g.validate with
  | .ok () => .ok g
  | .error e => .error (.malformed e)

/-- The graph of the first routine that backtracks. -/
def ofSource (source : String) (o : GraphOptions) : Except AnalysisError StaticGraph := do
  match Snippet.read source with
  | .error f => throw (.broken f)
  | .ok s =>
    match s.backtracking? with
    | none => throw .noBacktracking
    | some r => ofRoutine s.text r o

end StaticGraph

/-- The steps that a source text announces without being run. -/
def staticTrace (source : String) : Except AnalysisError (List Step) :=
  match Snippet.read source with
  | .error f => .error (.broken f)
  | .ok s => if s.sites.isEmpty then .error .noInstrumentation else .ok (stepsFrom 1 s.sites)

end Retrace
