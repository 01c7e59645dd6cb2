import Retrace.Source.File
import Retrace.Trace.Signatures
/-!
The routines of a source text, and what can be asked about their bodies. All questions are about the
whole tree below a body, whether it can be reached or not.
-/
namespace Retrace.Source

/-- A routine with a body. -/
structure Routine where
  signature : Signature
  body : Node

def Param.nameIn (text : List Char) (p : Param) : String :=
  match p.name with
  | .word name => name
  | .pattern span => span.slice text

namespace Signature

def paramNames (text : List Char) (s : Signature) : List String :=
  s.params.map (Param.nameIn text)

def paramDeclarations (text : List Char) (s : Signature) : List String :=
  s.params.map fun p => p.declaration.slice text

/-- Whether a program starts at the routine. -/
def isEntry (s : Signature) : Bool := s.name == "main" && s.params.isEmpty

end Signature

namespace Node

def routine? (n : Node) : Option Routine :=
  match n.form with
  | .routine s true => n.children.getLast?.map fun body => ⟨s, body⟩
  | _ => none

/-- The line of a call of a routine, or of a method, with the name. -/
def callLine? (name : String) (n : Node) : Option Nat :=
  match n.form with
  | .call (some callee) => if callee = name then some n.line else none
  | .method method line => if method = name then some line else none
  | _ => none

/-- The lines of the calls of a name below a node. -/
def callLines (n : Node) (name : String) : List Nat := (n.preorder true).filterMap (callLine? name)

def loopLines (n : Node) : List Nat :=
  (n.preorder true).filterMap fun m => if m.form == .loop then some m.line else none

/-- The values that are returned below a node. -/
def returnValues (n : Node) : List Node :=
  (n.preorder true).filterMap fun m => if m.form == .exit then m.operands.head? else none

/-- The lines of the conditions below a node under which something may be returned. -/
def guardLines (n : Node) : List Nat :=
  (n.preorder true).filterMap fun m => if m.form == .branch true then some m.line else none

end Node

namespace Routine

def name (r : Routine) : String := r.signature.name

def callLines (r : Routine) (name : String) : List Nat := r.body.callLines name

def loopLines (r : Routine) : List Nat := r.body.loopLines

/-- The texts of the values returned in the body. -/
def returnTexts (text : List Char) (r : Routine) : List String :=
  r.body.returnValues.map fun n => n.span.slice text

/-- The lines of the conditions in the body under which something may be returned. -/
def guardLines (r : Routine) : List Nat := r.body.guardLines

/-- Whether a routine calls itself by name and has a loop. -/
def isBacktracking (r : Routine) : Bool :=
  !(r.callLines r.name).isEmpty && !r.loopLines.isEmpty

end Routine

namespace Snippet

/-- The routines of a source text, those inside others included. -/
def routines (s : Snippet) : List Routine :=
  (Node.preorderAll false s.items).filterMap Node.routine?

/-- The first routine that backtracks. -/
def backtracking? (s : Snippet) : Option Routine := s.routines.find? Routine.isBacktracking

/-- The declared parameters of all routines. -/
def signatures (s : Snippet) : Signatures :=
  .ofList (s.routines.map fun r => (r.name, r.signature.paramNames s.text))

/-- The name of the first structure, enumeration, trait or module at the top. -/
def unitName? (s : Snippet) : Option Name :=
  s.items.findSome? fun n =>
    match n.form with
    | .unit name => some name
    | _ => none

/-- The text of the name of the first structure, enumeration, trait or module at the top. -/
def unit? (s : Snippet) : Option String := s.unitName?.map Name.text

def isEntry (n : Node) : Bool := n.routine?.any fun r => r.signature.isEntry

/-- Whether a program starts at a routine at the top. -/
def hasMain (s : Snippet) : Bool := s.items.any isEntry

/-- Whether a program starts at a routine that belongs to a type itself. -/
def unitHasMain (s : Snippet) (unit : String) : Bool :=
  s.items.any fun n => n.form == .inherent (some unit) && n.children.any isEntry

end Snippet

end Retrace.Source
