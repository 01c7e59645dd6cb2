import Retrace.Graph.Unroll
import Retrace.Json.Record
/-!
Reading the records of graphs and of the options for building them.
-/
namespace Retrace

open Json

def NodeKind.read : Decoder NodeKind := Decoder.choice (NodeKind.all.map fun k => (k.name, k))

def GraphNode.layout : Record GraphNode :=
  (Record.required "id" Decoder.text).map GraphNode.mk
    |>.apply (Record.required "label" Decoder.text)
    |>.apply (Record.required "kind" NodeKind.read)
    |>.apply (Record.required "parameters" (Decoder.list Decoder.text))
    |>.apply (Record.required "returnExpressions" (Decoder.list Decoder.text))
    |>.apply (Record.required "children" (Decoder.list Decoder.text))

def GraphNode.read : Decoder GraphNode := GraphNode.layout.read "GraphNode"

def StaticGraph.read : Decoder StaticGraph := fun room =>
  return ⟨← Decoder.list GraphNode.read room⟩

def GraphOptions.read : Decoder GraphOptions :=
  ((Record.required "maxDepth" (Decoder.word64 "usize")).map GraphOptions.mk).read "GraphOptions"

end Retrace
