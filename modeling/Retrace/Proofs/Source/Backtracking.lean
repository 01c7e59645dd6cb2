import Retrace.Proofs.Graph.Unroll
import Retrace.Proofs.Source.Addresses

/-! Which routines backtrack: those with a call of themselves and a loop anywhere in the tree of their
body. The graph of a source text is the one of the first of them. -/
namespace Retrace.Source

variable {n m : Node} {r : Routine} {s : Snippet} {source name : String} {a : Address}
  {P : Node → Prop} {k : Nat} {β : Type} {f : Node → Option β} {bs : List β}

namespace Node

end Node

end Retrace.Source

namespace Retrace.StaticGraph

open Source

variable {r : Routine} {s : Snippet} {source : String} {o : GraphOptions} {f : Fault}

/-- A routine without a loop before one that calls itself in an argument of an invocation. -/
def walkSource : String :=
  "fn idle() \x7b\x7d fn walk(n: u32) \x7b for i in 0..n \x7b print!(\"\", walk(i)); \x7d \x7d"

end Retrace.StaticGraph
