import Retrace.Source.Literal
import Retrace.Source.Name
import Retrace.Source.Place
/-!
The tree of a source text. Expressions, statements and items are nodes; a type, a pattern or a path
contributes the expressions and invocations written in it. The children of a node stand in the
order in which a reader of the tree meets them: attributes first, then what the node declares, then
what it holds.
-/
namespace Retrace.Source

structure Span where
  start : Place
  stop : Nat
  deriving DecidableEq, Repr

/-- How a parameter is called: by an identifier, or by the text of its pattern. -/
inductive ParamName where
  | word (name : String)
  | pattern (span : Span)
  deriving DecidableEq, Repr

/-- A declared parameter with the text of its declaration. -/
structure Param where
  name : ParamName
  declaration : Span
  deriving DecidableEq, Repr

/-- What a routine declares before its body. -/
structure Signature where
  name : String
  line : Nat
  params : List Param
  deriving DecidableEq, Repr

/-- What a node is. A path names its last segment, and the whole of it when it is one identifier;
an invocation likewise, with the line it starts on and whether its body is a list of
expressions. -/
inductive Form where
  | literal (value : Literal)
  | path (whole : Option String) (last : String)
  | negation
  | reference
  | parenthesized
  | array
  | comparison
  | joined
  | range
  | call (callee : Option String)
  | method (name : String) (line : Nat)
  | loop
  | branch (returns : Bool)
  | block
  | exit
  | invocation (whole : Option String) (last : String) (line : Nat) (readable braced : Bool)
  | attribute
  | routine (signature : Signature) (hasBody : Bool)
  | unit (name : Name)
  | inherent (unit : Option String)
  | verbatim
  | other
  deriving DecidableEq, Repr

inductive Node where
  | mk (form : Form) (span : Span) (children : List Node)

namespace Node

def form : Node → Form
  | mk f _ _ => f

def span : Node → Span
  | mk _ s _ => s

/-- The children, attributes included. -/
def children : Node → List Node
  | mk _ _ cs => cs

def line (n : Node) : Nat := n.span.start.line

def isAttribute (n : Node) : Bool := n.form == .attribute

/-- The children that are no attributes. -/
def operands (n : Node) : List Node := n.children.filter fun c => !c.isAttribute

/-- Whether the node closes a statement without a semicolon. -/
def endsStatement (n : Node) : Bool :=
  match n.form with
  | .loop | .branch _ | .block => true
  | _ => false

mutual
/-- The node and all nodes below it, each before its children. The arguments of an invocation
count only when `inner` says so. -/
def preorder (inner : Bool) : Node → List Node
  | mk form span children => mk form span children :: match form with
    | .invocation .. => preorderArguments inner children
    | _ => preorderAll inner children

/-- The nodes of a list of nodes and below them. -/
def preorderAll (inner : Bool) : List Node → List Node
  | [] => []
  | n :: ns => n.preorder inner ++ preorderAll inner ns

/-- The nodes below an invocation. -/
def preorderArguments (inner : Bool) : List Node → List Node
  | [] => []
  | n :: ns =>
    (if inner || n.isAttribute then n.preorder inner else []) ++ preorderArguments inner ns
end

mutual
/-- Puts attributes before a node. Those before an operation belong to its first operand. -/
def attach (attributes : List Node) (start : Place) : Node → Node
  | mk .joined span children => mk .joined ⟨start, span.stop⟩ (attachFirst attributes start children)
  | mk .comparison span children =>
    mk .comparison ⟨start, span.stop⟩ (attachFirst attributes start children)
  | mk .verbatim span children => mk .verbatim ⟨start, span.stop⟩ children
  | mk form span children => mk form ⟨start, span.stop⟩ (attributes ++ children)

/-- Puts attributes before the first of some nodes. -/
def attachFirst (attributes : List Node) (start : Place) : List Node → List Node
  | [] => []
  | n :: ns => n.attach attributes start :: ns
end

end Node

end Retrace.Source
