import Retrace.Graph.Dot
import Retrace.Run.Pipeline
import Retrace.Service.Answer
import Retrace.Service.MediaType
/-!
What the service is asked, and what it answers.
-/
namespace Retrace.Service

open Json Text Source

structure Request where
  method : String
  path : String
  contentType : Option String
  body : Input

/-- What the service goes by: the options for graphs and for runs unless others are asked for, and
what a run finds around it. The identifier is the one of the run at hand. -/
structure Config where
  graph : GraphOptions
  run : RunOptions
  host : Host
  runId : String

/-- The options for graphs that the variables of an environment ask for. -/
def graphOptions (lookup : String → Option String) : GraphOptions :=
  (((lookup "BTVIZ_MAX_DEPTH").bind RunOptions.number?).map GraphOptions.ofDepth).getD .default

/-- What a graph is asked for with. -/
structure GraphQuery where
  code : String
  maxDepth : Option Nat
  deriving DecidableEq, Repr

/-- What a trace is asked for with. -/
structure TraceQuery where
  code : String
  timeout : Option Nat
  deriving DecidableEq, Repr

def GraphQuery.read : Decoder GraphQuery :=
  ((Record.withDefault "code" Decoder.text "").map GraphQuery.mk
    |>.apply (Record.possible "maxDepth" (Decoder.word64 "usize"))).read "GraphRequest"

def TraceQuery.read : Decoder TraceQuery :=
  ((Record.withDefault "code" Decoder.text "").map TraceQuery.mk
    |>.apply (Record.possible "timeoutMs" (Decoder.word64 "u64"))).read "TraceRequest"

/-- The answer to a body that cannot be read. -/
def rejection (body : Input) (f : Json.Fault) : Answer :=
  let text := f.messageWithPath body
  if f.cause.isAboutContent then
    .plain 422 ("Failed to deserialize the JSON body into the target type: " ++ text)
  else .plain 400 ("Failed to parse the request body as JSON: " ++ text)

/-- Whether a request says that its body is a document. -/
def Request.isDocument (r : Request) : Bool :=
  match r.contentType with
  | some s =>
    s.toList.all (fun c => c == '\t' || (32 ≤ c.toNat && c.toNat < 127)) &&
      (MediaType.read? s.toList).any MediaType.isJson
  | none => false

def bodyLimit : Nat := 2 * 1024 * 1024

/-- Reads the body of a request and answers. -/
def withBody {α : Type} (query : Decoder α) (r : Request) (answer : α → Answer) : Answer :=
  if !r.isDocument then .plain 415 "Expected request with `Content-Type: application/json`"
  else if bodyLimit < byteCount r.body then
    .plain 413 "Failed to buffer the request body: length limit exceeded"
  else match query.run r.body with
    | .ok q => answer q
    | .error f => rejection r.body f

/-- Answers with a fault if there is no program. -/
def withCode (code : String) (answer : Answer) : Answer :=
  if blank code.toList then Problem.noCode.answer else answer

def graphAnswer (c : Config) (present : GraphOptions → StaticGraph → Answer) (q : GraphQuery) :
    Answer :=
  let o := (q.maxDepth.map GraphOptions.ofDepth).getD c.graph
  withCode q.code <|
    match StaticGraph.ofSource q.code o with
    | .ok g => present o g
    | .error e => (Problem.ofAnalysis e).answer

def presentGraph (o : GraphOptions) (g : StaticGraph) : Answer :=
  .success (.record [("maxDepth", .nat o.maxDepth), ("nodes", g.toJson)]) []

def presentTrace (runId : String) (isStatic : Bool) (steps : List Step) (warnings : List String) :
    Answer :=
  .success (.record [("runId", .text runId), ("isStatic", .truth isStatic),
    ("steps", .list (steps.map Step.toJson))]) warnings

/-- Notes on a program that can be read and has no instrumentation calls. -/
def warnings (code : String) : List String :=
  match Snippet.read code with
  | .ok s =>
    if s.sites.isEmpty then ["no capture_step! calls found; the trace will be empty"] else []
  | .error _ => []

def traceAnswer (c : Config) (q : TraceQuery) : Answer :=
  withCode q.code <|
    match (Pipeline.run c.host q.code (c.run.withLimit q.timeout)).1 with
    | .ok steps => presentTrace c.runId false steps (warnings q.code)
    | .error e => (Problem.ofTrace e).answer

/-- The answer to a question for a trace without running the program. -/
def staticAnswer (c : Config) (q : TraceQuery) : Answer :=
  withCode q.code <|
    match staticTrace q.code with
    | .ok steps => presentTrace c.runId true steps []
    | .error e => (Problem.ofAnalysis e).answer

/-- The answer that says that the service is there. -/
def health : Answer :=
  .document 200 (.record [("status", .text "ok"), ("version", .text "0.1.0")])

/-- What the service has under a path: the methods that are allowed there and the answer. -/
def route? (c : Config) (path : String) : Option (List String × (Request → Answer)) :=
  match path with
  | "/health" => some (["GET", "HEAD"], fun _ => health)
  | "/api/graph" =>
    some (["POST"], fun r => withBody GraphQuery.read r (graphAnswer c presentGraph))
  | "/api/graph/dot" =>
    some (["POST"], fun r =>
      withBody GraphQuery.read r (graphAnswer c fun _ g => .drawing g.toDot))
  | "/api/trace" => some (["POST"], fun r => withBody TraceQuery.read r (traceAnswer c))
  | "/api/trace/static" => some (["POST"], fun r => withBody TraceQuery.read r (staticAnswer c))
  | _ => none

/-- The path of a request without what follows a question mark. -/
def Request.route (r : Request) : String := String.ofList (r.path.toList.takeWhile (· != '?'))

/-- The answer to a request. A question for the options of a path is always answered. -/
def answer (c : Config) (r : Request) : Answer :=
  let asksOptions := r.method == "OPTIONS"
  match route? c r.route with
  | none => .bare (if asksOptions then 200 else 404)
  | some (methods, reply) =>
    if methods.contains r.method then
      let a := reply r
      if r.method == "HEAD" then { a with body := "" } else a
    else
      { Answer.bare (if asksOptions then 200 else 405) with
        allow := some (String.intercalate "," methods) }

end Retrace.Service
