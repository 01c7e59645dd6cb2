/-!
Directed graphs on numbers, and whether one of them leads from a number back to itself.
-/
namespace Retrace

/-- A directed graph on the numbers below a bound. An edge may come more than once. -/
structure Multigraph where
  size : Nat
  edges : List (Fin size × Fin size)

namespace Multigraph

/-- The vertices that still have an edge to one of them. -/
def prune (m : Multigraph) (vs : List (Fin m.size)) : List (Fin m.size) :=
  vs.filter fun v => m.edges.any fun e => e.1 = v ∧ e.2 ∈ vs

/-- Takes vertices without edges away, layer by layer. -/
def pruneTimes (m : Multigraph) : Nat → List (Fin m.size) → List (Fin m.size)
  | 0, vs => vs
  | k + 1, vs => m.pruneTimes k (m.prune vs)

/-- Whether some vertex leads back to itself. Each round of pruning takes a vertex away as long as
it changes anything, so as many rounds as vertices leave only those from which a cycle can be
reached. -/
def isCyclic (m : Multigraph) : Bool := !(m.pruneTimes m.size (List.finRange m.size)).isEmpty

end Multigraph

end Retrace
