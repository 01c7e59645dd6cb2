import Retrace.Source.Routine
import Retrace.Number.Read
import Retrace.Trace.Step
/-!
Instrumentation calls in a source text, and the values that can be read off their arguments without
running anything.
-/
namespace Retrace.Source

open Number

def Literal.value : Literal → Value
  | .text s => .text (String.ofList s)
  | .char c => .char c
  | .byte b => .int b.toNat
  | .truth b => .truth b
  | .whole n _ => .ofInt n
  | .decimal digits _ =>
    match readBinary? .double digits with
    | some x => .float x
    | none => .object (String.ofList digits)
  | .other s => .object (String.ofList s)

mutual
/-- The value of an expression as far as it can be told without running it: literals stand for
themselves, a variable for its name, and everything else is described by its text. -/
def Node.value (text : List Char) : Node → Value
  | .mk form span children =>
    let described : Value := .object (span.slice text)
    match form with
    | .literal l => l.value
    | .negation =>
      match operandValue text children with
      | .int n => .int (-n)
      | .float x => .float x.negate
      | _ => described
    | .parenthesized | .reference => operandValue text children
    | .array => .list (operandValues text children)
    | .path (some name) _ => if name = "None" then .null else .text name
    | .invocation (some "vec") _ _ true _ => .list (operandValues text children)
    | _ => described

def operandValue (text : List Char) : List Node → Value
  | [] => .null
  | n :: ns => if n.isAttribute then operandValue text ns else n.value text

def operandValues (text : List Char) : List Node → List Value
  | [] => []
  | n :: ns =>
    if n.isAttribute then operandValues text ns else n.value text :: operandValues text ns
end

mutual
/-- The text that an expression is, in parentheses perhaps. -/
def Node.text? : Node → Option String
  | .mk (.literal (.text s)) _ _ => some (String.ofList s)
  | .mk .parenthesized _ children => operandText? children
  | .mk _ _ _ => none

/-- The text that the first operand is. -/
def operandText? : List Node → Option String
  | [] => none
  | n :: ns => if n.isAttribute then operandText? ns else n.text?
end

/-- A routine as far as a call inside it is concerned: its name and its parameters. -/
structure Enclosing where
  routine : String
  params : List String
  deriving DecidableEq, Repr

/-- An instrumentation call. -/
structure Site where
  line : Nat
  enclosing : Option Enclosing
  action : String
  details : String
  bindings : Bindings

namespace Site

/-- The name of the instrumentation call. -/
def invocationName : String := "capture_step"

/-- The call with some arguments. Names and values come in pairs, so that with an odd number of
arguments the first is the collector. -/
def ofArguments (text : List Char) (enclosing : Option Enclosing) (line : Nat) (args : List Node) :
    Site :=
  let args := if args.length % 2 = 1 then args.drop 1 else args
  { line, enclosing
    action := ((args[0]?).bind Node.text?).getD "unknown"
    details := ((args[1]?).bind Node.text?).getD ""
    bindings := Value.bindings ((args.drop 2).map fun n => n.value text) }

end Site

mutual
/-- The instrumentation calls at a node and below it. -/
def Node.sites (text : List Char) (enclosing : Option Enclosing) : Node → List Site
  | .mk form _ children =>
    match form with
    | .routine s _ => nodeSites text (some ⟨s.name, s.paramNames text⟩) children
    | .invocation _ name line _ _ =>
      if name = Site.invocationName then
        attributeSites text enclosing children ++
          [.ofArguments text enclosing line (children.filter fun n => !n.isAttribute)]
      else nodeSites text enclosing children
    | _ => nodeSites text enclosing children

def nodeSites (text : List Char) (enclosing : Option Enclosing) : List Node → List Site
  | [] => []
  | n :: ns => n.sites text enclosing ++ nodeSites text enclosing ns

/-- The instrumentation calls in the attributes among some nodes. -/
def attributeSites (text : List Char) (enclosing : Option Enclosing) : List Node → List Site
  | [] => []
  | n :: ns =>
    (if n.isAttribute then n.sites text enclosing else []) ++ attributeSites text enclosing ns
end

namespace Snippet

def sites (s : Snippet) : List Site := nodeSites s.text none s.items

end Snippet

namespace Site

/-- The step that a call stands for when nothing is run. -/
def step (sequence : Nat) (s : Site) : Step :=
  let function := (s.enclosing.map Enclosing.routine).getD "global"
  let params := (s.enclosing.map Enclosing.params).getD []
  { sequence, function, bindings := s.bindings
    stack := [.declared function params (some s.line)]
    line := some s.line, action := s.action, details := s.details }

end Site

/-- The steps of the instrumentation calls, numbered from `n` on. -/
def stepsFrom (n : Nat) : List Site → List Step
  | [] => []
  | s :: ss => s.step n :: stepsFrom (n + 1) ss

end Retrace.Source
