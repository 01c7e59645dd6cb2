import Retrace.Graph.Basic
/-!
Graphs as text for a drawing program. Ids stand in quotes, and labels are tables.
-/
namespace Retrace

/-- The text with another text in place of each occurrence of a mark. -/
def replaceMark (mark : Char) (other s : String) : String :=
  String.ofList <| s.toList.flatMap fun c => if c = mark then other.toList else [c]

/-- A text inside quotes: a backslash goes before each backslash, and then before each quote. -/
def quotedText (s : String) : String := replaceMark '"' "\\\"" (replaceMark '\\' "\\\\" s)

/-- A text inside a table: the marks of the table language are named, first the one with which names
begin. -/
def tableText (s : String) : String :=
  replaceMark '"' "&quot;" <| replaceMark '>' "&gt;" <| replaceMark '<' "&lt;" <|
    replaceMark '&' "&amp;" s

namespace GraphNode

def row (text : String) : String := "<tr><td>" ++ tableText text ++ "</td></tr>"

/-- A row of a table that stands out. -/
def heading (content : String) : String := "<tr><td><b>" ++ content ++ "</b></td></tr>"

/-- The rows of a table under a heading, none without content. -/
def rows (head : String) (texts : List String) : String :=
  if texts.isEmpty then "" else heading head ++ String.join (texts.map row)

/-- The label of a node. -/
def table (n : GraphNode) : String :=
  "<table border='0' cellborder='1' cellspacing='0' cellpadding='4'>" ++
    heading (tableText n.label) ++ rows "Parameters:" n.parameters ++
    rows "Returns:" n.returnExpressions ++ "</table>"

def dotNode (n : GraphNode) : String :=
  "    \"" ++ quotedText n.id ++ "\" [fillcolor=\"" ++ n.kind.color ++ "\", label=<" ++ n.table ++
    ">];\n"

/-- The line that leads from a node to a child, by their ids. -/
def dotEdge (parent child : String) : String :=
  "    \"" ++ quotedText parent ++ "\" -> \"" ++ quotedText child ++ "\";\n"

def dotEdges (n : GraphNode) : String := String.join (n.children.map (dotEdge n.id))

end GraphNode

namespace StaticGraph

def toDot (g : StaticGraph) : String :=
  "digraph backtracking \x7b\n" ++
    "    node [shape=rectangle, style=filled, fontname=\"Helvetica\"];\n" ++
    String.join (g.nodes.map GraphNode.dotNode) ++ String.join (g.nodes.map GraphNode.dotEdges) ++
    "\x7d\n"

end StaticGraph

end Retrace
