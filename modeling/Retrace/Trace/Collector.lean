import Retrace.Trace.Backtrace
import Retrace.Trace.Denylist
import Retrace.Trace.Signatures
import Retrace.Trace.Step
/-!
The collector of a run: the steps recorded so far, and the call stack of the latest one. The values
of an outer frame are those seen when the same routine was last recorded at the same place of the
stack.
-/
namespace Retrace

/-- What an instrumentation call knows of its surroundings: the call chain, innermost frame first,
and the place of the call itself. -/
structure CallContext where
  chain : Option (List RawFrame)
  site : Option RawFrame

/-- The state of a run. -/
structure Collector where
  steps : List Step
  next : Nat
  shadow : List Frame
  denylist : Denylist
  signatures : Signatures

namespace Collector

def new (denylist : Denylist) (signatures : Signatures) : Collector :=
  ⟨[], 1, [], denylist, signatures⟩

def reset (c : Collector) : Collector := { c with steps := [], next := 1, shadow := [] }

/-- The frames of a context that are not left out, innermost first. The site of the call stands for
an empty chain, and knows the line better when its routine is the innermost one. -/
def userFrames (d : Denylist) (k : CallContext) : List RawFrame :=
  let frames := (k.chain.getD []).filter fun f => !d.denies f.symbol
  match k.site, frames with
  | none, _ => frames
  | some site, [] => [site]
  | some site, f :: rest =>
    if site.short = f.short then { f with line := site.line.or f.line } :: rest else frames

/-- The routine and the line that a step names. -/
def caller (k : CallContext) (frames : List RawFrame) : String × Line :=
  match k.site, frames with
  | some site, _ => (site.short, site.line)
  | none, f :: _ => (f.short, f.line)
  | none, [] => ("unknown", none)

/-- The innermost frame: declared parameters take their values from the variables, and the other
variables are locals. -/
def innermostFrame (t : Signatures) (f : RawFrame) (vs : Bindings) : Frame :=
  let declared := t.params f.short
  { function := f.short
    parameters := .ofRows (declared.map fun p => (p, vs.get? p))
    locals := (vs.filter fun name => !declared.contains name).map some
    line := f.line }

/-- An outer frame: it keeps the values of the frame that stood there before, if that was one of
the same routine. -/
def outerFrame (t : Signatures) (before : Option Frame) (f : RawFrame) : Frame :=
  match before with
  | some b =>
    if b.function = f.short then { b with line := f.line }
    else .declared f.short (t.params f.short) f.line
  | none => .declared f.short (t.params f.short) f.line

/-- The call stack of frames that come oldest first, over the stack of the step before. -/
def buildStack (t : Signatures) (vs : Bindings) : List Frame → List RawFrame → List Frame
  | _, [] => []
  | _, [f] => [innermostFrame t f vs]
  | shadow, f :: fs => outerFrame t shadow.head? f :: buildStack t vs shadow.tail fs

/-- The step that an instrumentation call gives rise to. -/
def stepOf (c : Collector) (action details : String) (vs : Bindings) (k : CallContext) : Step :=
  let frames := userFrames c.denylist k
  let (function, line) := caller k frames
  { sequence := c.next, function, bindings := vs
    stack := buildStack c.signatures vs c.shadow frames.reverse
    line, action, details }

def record (c : Collector) (action details : String) (vs : Bindings) (k : CallContext) :
    Collector :=
  let step := c.stepOf action details vs k
  { c with steps := c.steps ++ [step], next := c.next + 1, shadow := step.stack }

end Collector

end Retrace
