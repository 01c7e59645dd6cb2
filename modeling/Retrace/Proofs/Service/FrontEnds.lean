import Mathlib.Data.List.TakeWhile
import Retrace.Command.Result
import Retrace.Proofs.Command.Arguments
import Retrace.Proofs.Service.Graph
import Retrace.Proofs.Source.Blank

/-! The service and the command line answer alike: what one of them makes of a source text, the other
makes of it too, and where one of them fails, so does the other. -/
namespace Retrace.Service

open Json Json.Record Text

variable {c : Config} {q : Request} {α β : Type} {query : Decoder α} {path source file name : String}
  {a : α} {o : RunOptions} {depth : Nat} {timeout : Option Nat} {reply : Answer} {r : Command.Result}
  {present : β → Json} {b : β}

/-! ### Posted documents -/

/-- What is posted to a path is a document of the size that is allowed, and read as a query. -/
structure Posts (query : Decoder α) (path : String) (a : α) (q : Request) : Prop where
  method : q.method = "POST"
  route : q.route = path
  document : q.isDocument = true
  small : byteCount q.body ≤ bodyLimit
  reads : query.run q.body = .ok a

theorem Posts.withBody (h : Posts query path a q) (reply : α → Answer) :
    withBody query q reply = reply a := by
  have hdocument : (!q.isDocument) = false := by rw [h.document]; rfl
  simp only [Service.withBody, hdocument, h.reads, if_neg (Nat.not_lt.mpr h.small),
    Bool.false_eq_true, if_false]

def posting (path : String) (fields : List (String × Json)) : Request where
  method := "POST"
  path := path
  contentType := some "application/json"
  body := (Json.record fields).render.toList.map some

def GraphQuery.fields (source : String) (depth : Nat) : List (String × Json) :=
  [("code", .text source), ("maxDepth", .nat depth)]

def TraceQuery.fields (source : String) (timeout : Option Nat) : List (String × Json) :=
  ("code", .text source) :: (timeout.map fun n => ("timeoutMs", .nat n)).toList

theorem isDocument_posting (path : String) (fields : List (String × Json)) :
    (posting path fields).isDocument = true := by
  show (posting "" []).isDocument = true
  decide +kernel

theorem route_posting (hp : '?' ∉ path.toList) (fields : List (String × Json)) :
    (posting path fields).route = path := by
  have htake : path.toList.takeWhile (· != '?') = path.toList := by
    refine List.takeWhile_eq_self_iff.mpr fun c hc => ?_
    simpa using fun h : c = '?' => hp (h ▸ hc)
  rw [Request.route, posting, htake, String.ofList_toList]

theorem posts_posting {fields : List (String × Json)} (hr : (posting path fields).route = path)
    (hs : byteCount (posting path fields).body ≤ bodyLimit)
    (h : Restores (query roomLimit) (.record fields) a) :
    Posts query path a (posting path fields) := by
  refine ⟨rfl, hr, isDocument_posting path fields, hs, ?_⟩
  have htakes := h.takes [] atEnd_nil
  rw [List.append_nil] at htakes
  rw [Decoder.run, posting, htakes]
  rfl

theorem restores_optional_word64 {o : Option Nat} (h : ∀ n ∈ o, n ≤ 0xFFFFFFFFFFFFFFFF)
    (wanted : String) (room : Nat) :
    Restores (Decoder.option (Decoder.word64 wanted) room) (.ofOption .nat o) o :=
  restores_option fun n hn => ⟨restores_word64 (h n hn) wanted room, notNull_nat n⟩

theorem restores_graphQuery (source : String) (hd : depth ≤ 0xFFFFFFFFFFFFFFFF) (room : Nat) :
    Restores (GraphQuery.read (room + 1)) (.record (GraphQuery.fields source depth))
      ⟨source, some depth⟩ := by
  have hcode : ((withDefault "code" Decoder.text "").map GraphQuery.mk).Builds room
      [("code", .text source)] (GraphQuery.mk source) :=
    makes_map GraphQuery.mk (makes_single (restores_text room source))
  have hdepth := restores_optional_word64 (o := some depth) (by simpa using hd) "usize" room
  have hfields := hcode.possible "maxDepth" hdepth (by simp)
  exact hfields.restores "GraphRequest"

theorem restores_traceQuery (source : String) (ht : ∀ n ∈ timeout, n ≤ 0xFFFFFFFFFFFFFFFF)
    (room : Nat) :
    Restores (TraceQuery.read (room + 1)) (.record (TraceQuery.fields source timeout))
      ⟨source, timeout⟩ := by
  have hcode : ((withDefault "code" Decoder.text "").map TraceQuery.mk).Builds room
      [("code", .text source)] (TraceQuery.mk source) :=
    makes_map TraceQuery.mk (makes_single (restores_text room source))
  cases timeout with
  | some n =>
    have hfields := hcode.possible "timeoutMs" (restores_optional_word64 ht "u64" room) (by simp)
    exact hfields.restores "TraceRequest"
  | none =>
    have habsent : (possible "timeoutMs" (Decoder.word64 "u64")).Makes room [] none :=
      makes_absent rfl
    have hfields : ((((withDefault "code" Decoder.text "").map TraceQuery.mk).apply
        (possible "timeoutMs" (Decoder.word64 "u64"))).Builds room
          [("code", .text source)] ⟨source, none⟩) :=
      makes_apply hcode habsent (by simp)
    exact hfields.restores "TraceRequest"

/-! ### Agreement -/

/-- The service succeeds just if the command does, and what both give is the same then. -/
def Agrees (same : Answer → Command.Result → Prop) (reply : Answer) (r : Command.Result) : Prop :=
  (reply.status = 200 ↔ r.code = 0) ∧ (reply.status = 200 → same reply r)

/-- The data in the answer end with the document that the command prints. -/
def SameDocument (present : β → Json) (name : String) (reply : Answer) (r : Command.Result) :
    Prop :=
  ∃ b before after,
    reply.body = (Json.record (("success", .truth true) ::
      ("data", .record (before ++ [(name, present b)])) :: after)).render ∧
    r.stdout = (present b).pretty 0 ++ "\n"

/-- The answer is the text that the command prints. -/
def SameText (reply : Answer) (r : Command.Result) : Prop := reply.body = r.stdout

variable {same : Answer → Command.Result → Prop}

/-- The front ends agree if both fail where nothing comes of a source text, as of one of blanks, which
the service does not even look at, and both succeed alike where something does. -/
theorem agrees_of_outcome {ε : Type} {x : Except ε β}
    (hblank : blank source.toList = true → ∃ e, x = .error e)
    (herror : ∀ e, x = .error e → reply.status ≠ 200 ∧ r.code ≠ 0)
    (hok : ∀ b, x = .ok b → reply.status = 200 ∧ r.code = 0 ∧ same reply r) :
    Agrees same (withCode source reply) r := by
  by_cases hb : blank source.toList = true
  · obtain ⟨e, he⟩ := hblank hb
    have hcode := (herror e he).2
    have hstatus : Problem.noCode.answer.status ≠ 200 := by decide
    rw [withCode, if_pos hb]
    exact ⟨⟨fun h => absurd h hstatus, fun h => absurd h hcode⟩, fun h => absurd h hstatus⟩
  · rw [withCode, if_neg hb]
    cases x with
    | ok b =>
      obtain ⟨hstatus, hcode, hsame⟩ := hok b rfl
      exact ⟨⟨fun _ => hcode, fun _ => hstatus⟩, fun _ => hsame⟩
    | error e =>
      obtain ⟨hstatus, hcode⟩ := herror e rfl
      exact ⟨⟨fun h => absurd h hstatus, fun h => absurd h hcode⟩, fun h => absurd h hstatus⟩

theorem sameDocument_success (present : β → Json) (name : String) (before : List (String × Json))
    (b : β) (warnings : List String) :
    SameDocument present name (.success (.record (before ++ [(name, present b)])) warnings)
      (.document (present b)) :=
  ⟨b, before, _, rfl, rfl⟩

theorem status_ofAnalysis (e : AnalysisError) : (Problem.ofAnalysis e).answer.status ≠ 200 := by
  cases e <;> simp [Problem.ofAnalysis, Problem.answer, Answer.document]

theorem status_ofTrace (e : TraceError) : (Problem.ofTrace e).answer.status ≠ 200 := by
  cases e <;> simp [Problem.ofTrace, Problem.answer, Answer.document]

theorem code_ofAnalysis (file : String) (e : AnalysisError) :
    (Command.Result.ofAnalysis file e).code ≠ 0 := by
  cases e <;> simp [Command.Result.ofAnalysis, Command.Result.failure]

theorem code_ofTrace (e : TraceError) : (Command.Result.ofTrace e).code ≠ 0 := by
  cases e <;> simp [Command.Result.ofTrace, Command.Result.failure]

def stepsDocument (steps : List Step) : Json := .list (steps.map Step.toJson)

/-- Where a graph is shown alike by both front ends, they agree on the graph of each source text. -/
theorem graphAnswer_agrees {present : GraphOptions → StaticGraph → Answer} {asDot : Bool}
    (h : ∀ o g, (present o g).status = 200 ∧
      same (present o g) (if asDot then ⟨0, g.toDot, ""⟩ else .document g.toJson))
    (c : Config) (source file : String) (depth : Nat) :
    Agrees same (graphAnswer c present ⟨source, some depth⟩)
      (Command.printGraph file source depth asDot) := by
  unfold graphAnswer Command.printGraph
  refine agrees_of_outcome (fun hb => ⟨_, ofSource_blank hb (.ofDepth depth)⟩) (fun e he => ?_)
    (fun g hg => ?_)
  · simp only [Option.map_some, Option.getD_some, he]
    exact ⟨status_ofAnalysis e, code_ofAnalysis file e⟩
  · simp only [Option.map_some, Option.getD_some, hg]
    obtain ⟨hstatus, hsame⟩ := h (.ofDepth depth) g
    refine ⟨hstatus, ?_, hsame⟩
    cases asDot <;> rfl

theorem staticAnswer_agrees (c : Config) (source file : String) (timeout : Option Nat)
    (host : Host) (o : RunOptions) :
    Agrees (SameDocument stepsDocument "steps") (staticAnswer c ⟨source, timeout⟩)
      ((Command.trace file true none).runOn host o source) := by
  unfold staticAnswer Command.runOn
  refine agrees_of_outcome (fun hb => ⟨_, staticTrace_blank hb⟩) (fun e he => ?_)
    (fun steps hsteps => ?_)
  · simp only [he]
    exact ⟨status_ofAnalysis e, code_ofAnalysis file e⟩
  · simp only [hsteps]
    exact ⟨rfl, rfl, sameDocument_success stepsDocument "steps"
      [("runId", .text c.runId), ("isStatic", .truth true)] steps []⟩

theorem traceAnswer_agrees (c : Config) (source file : String) (timeout : Option Nat) :
    Agrees (SameDocument stepsDocument "steps") (traceAnswer c ⟨source, timeout⟩)
      ((Command.trace file false timeout).runOn c.host c.run source) := by
  unfold traceAnswer Command.runOn
  refine agrees_of_outcome (fun hb => ⟨_, run_blank hb c.host (c.run.withLimit timeout)⟩)
    (fun e he => ?_) (fun steps hsteps => ?_)
  · simp only [he]
    exact ⟨status_ofTrace e, code_ofTrace e⟩
  · simp only [hsteps]
    exact ⟨rfl, rfl, sameDocument_success stepsDocument "steps"
      [("runId", .text c.runId), ("isStatic", .truth false)] steps (warnings source)⟩

/-! ### Command lines and requests -/

def traceArguments (timeout : Option Nat) (file : String) : List String :=
  match timeout with
  | none => ["trace", file]
  | some n => ["trace", "--timeout-ms", toString n, file]

theorem read?_traceArguments (hf : Operand file) (ht : ∀ n ∈ timeout, n ≤ 0xFFFFFFFFFFFFFFFF) :
    Command.read? (traceArguments timeout file) = some (.trace file false timeout) := by
  cases timeout with
  | none => exact Command.read?_trace hf
  | some n => exact Command.read?_trace_timeout hf (ht n rfl)

theorem runArguments_eq {command : Command} {args : List String} {host : Host}
    {text : String → Except FileError String} (hc : Command.read? args = some command)
    (hf : command.file? = some file) (ht : text file = .ok source) :
    Command.runArguments host o text args = command.runOn host o source := by
  simp only [Command.runArguments, hc, Command.run, hf, ht]

/-- In one environment and on one host, for each source text, each depth and each limit: a request
for the graph of the text succeeds just if the command line for the graph of a file with the text
does, and then the nodes that are answered are those that are printed, and the drawings are the same;
the same holds for the steps of a trace, with and without running the program. A limit of zero is no
limit for either. The documents of the code with the depth or the limit are such requests. -/
theorem front_ends_agree (lookup : String → Option String) (host : Host) (runId source file : String)
    (text : String → Except FileError String) (depth : Nat) (timeout : Option Nat)
    (hd : depth ≤ 0xFFFFFFFFFFFFFFFF) (hl : ∀ n ∈ timeout, n ≤ 0xFFFFFFFFFFFFFFFF)
    (hf : Operand file) (ht : text file = .ok source) :
    let c : Config := ⟨graphOptions lookup, .ofLookup lookup, host, runId⟩
    let btviz := Command.runArguments host (.ofLookup lookup) text
    (∀ q, Posts GraphQuery.read "/api/graph" ⟨source, some depth⟩ q →
      Agrees (SameDocument StaticGraph.toJson "nodes") (answer c q)
        (btviz ["graph", "--max-depth", toString depth, file])) ∧
    (∀ q, Posts GraphQuery.read "/api/graph/dot" ⟨source, some depth⟩ q →
      Agrees SameText (answer c q)
        (btviz ["graph", "--dot", "--max-depth", toString depth, file])) ∧
    (∀ q, Posts TraceQuery.read "/api/trace/static" ⟨source, timeout⟩ q →
      Agrees (SameDocument stepsDocument "steps") (answer c q)
        (btviz ["trace", "--static", file])) ∧
    (∀ q, Posts TraceQuery.read "/api/trace" ⟨source, timeout⟩ q →
      Agrees (SameDocument stepsDocument "steps") (answer c q)
        (btviz (traceArguments timeout file))) ∧
    (∀ q q', Posts TraceQuery.read "/api/trace" ⟨source, some 0⟩ q →
      Posts TraceQuery.read "/api/trace" ⟨source, none⟩ q' → answer c q = answer c q' ∧
        btviz (traceArguments (some 0) file) = btviz (traceArguments none file)) ∧
    (∀ path ∈ ["/api/graph", "/api/graph/dot"],
      byteCount (posting path (GraphQuery.fields source depth)).body ≤ bodyLimit →
        Posts GraphQuery.read path ⟨source, some depth⟩
          (posting path (GraphQuery.fields source depth))) ∧
    (∀ path ∈ ["/api/trace", "/api/trace/static"],
      byteCount (posting path (TraceQuery.fields source timeout)).body ≤ bodyLimit →
        Posts TraceQuery.read path ⟨source, timeout⟩
          (posting path (TraceQuery.fields source timeout))) := by
  intro c btviz
  refine ⟨fun q h => ?_, fun q h => ?_, fun q h => ?_, fun q h => ?_, fun q q' h h' => ⟨?_, ?_⟩,
    fun path hp hs => ?_, fun path hp hs => ?_⟩
  · rw [answer_posted h.method (by rw [h.route]; rfl), h.withBody,
      show btviz _ = _ from runArguments_eq (Command.read?_graph hf hd) rfl ht]
    refine graphAnswer_agrees (fun o g => ⟨rfl, ?_⟩) c source file depth
    exact sameDocument_success StaticGraph.toJson "nodes" [("maxDepth", .nat o.maxDepth)] g []
  · rw [answer_posted h.method (by rw [h.route]; rfl), h.withBody,
      show btviz _ = _ from runArguments_eq (Command.read?_graph_dot hf hd) rfl ht]
    exact graphAnswer_agrees (fun o g => ⟨rfl, rfl⟩) c source file depth
  · rw [answer_posted h.method (by rw [h.route]; rfl), h.withBody,
      show btviz _ = _ from runArguments_eq (Command.read?_trace_static hf) rfl ht]
    exact staticAnswer_agrees c source file timeout host _
  · rw [answer_posted h.method (by rw [h.route]; rfl), h.withBody,
      show btviz _ = _ from runArguments_eq (read?_traceArguments hf hl) rfl ht]
    exact traceAnswer_agrees c source file timeout
  · rw [answer_posted h.method (by rw [h.route]; rfl), h.withBody,
      answer_posted h'.method (by rw [h'.route]; rfl), h'.withBody]
    rfl
  · rw [show btviz _ = _ from runArguments_eq (read?_traceArguments hf (by simp)) rfl ht,
      show btviz _ = _ from runArguments_eq (read?_traceArguments hf (by simp)) rfl ht]
    rfl
  · have hmark : '?' ∉ path.toList := by
      rcases List.mem_pair.mp hp with rfl | rfl <;> decide
    exact posts_posting (route_posting hmark _) hs (restores_graphQuery source hd _)
  · have hmark : '?' ∉ path.toList := by
      rcases List.mem_pair.mp hp with rfl | rfl <;> decide
    exact posts_posting (route_posting hmark _) hs (restores_traceQuery source hl _)

/-- Two source texts, one of them of blanks. -/
def sampleFiles (file : String) : Except FileError String :=
  if file = "walk.rs" then .ok StaticGraph.walkSource
  else if file = "blank.rs" then .ok "\t\n"
  else .error .notFound

/-- The service without an environment. -/
def plainConfig : Config := ⟨graphOptions fun _ => none, .ofLookup fun _ => none, idleHost, ""⟩

/-- The command line without an environment. -/
def plainCommand (args : List String) : Command.Result :=
  Command.runArguments idleHost (.ofLookup fun _ => none) sampleFiles args

/-- A program of which there is a graph, and a text of blanks that is not run. -/
theorem front_ends_agree_samples :
    (Operand "walk.rs" ∧ sampleFiles "walk.rs" = .ok StaticGraph.walkSource ∧
      let reply := answer plainConfig
        (posting "/api/graph" (GraphQuery.fields StaticGraph.walkSource 3))
      let r := plainCommand ["graph", "--max-depth", "3", "walk.rs"]
      reply.status = 200 ∧ r.code = 0 ∧ SameDocument StaticGraph.toJson "nodes" reply r) ∧
    Operand "blank.rs" ∧ sampleFiles "blank.rs" = .ok "\t\n" ∧
      let reply := answer plainConfig (posting "/api/trace" (TraceQuery.fields "\t\n" (some 0)))
      let r := plainCommand ["trace", "--timeout-ms", "0", "blank.rs"]
      reply.status = 400 ∧ r.code ≠ 0 := by
  have hwalk : Operand "walk.rs" := by decide
  have hblank : Operand "blank.rs" := by decide
  refine ⟨⟨hwalk, rfl, ?_⟩, hblank, rfl, ?_⟩
  · obtain ⟨hgraph, -, -, -, -, hposts, -⟩ := front_ends_agree (fun _ => none) idleHost ""
      StaticGraph.walkSource "walk.rs" sampleFiles 3 none (by decide) (by simp) hwalk rfl
    obtain ⟨hiff, hsame⟩ := hgraph _ (hposts "/api/graph" (by decide) (by decide +kernel))
    have hcode : (plainCommand ["graph", "--max-depth", "3", "walk.rs"]).code = 0 := by
      decide +kernel
    have hstatus := hiff.mpr hcode
    exact ⟨hstatus, hcode, hsame hstatus⟩
  · obtain ⟨-, -, -, htrace, -, -, hposts⟩ := front_ends_agree (fun _ => none) idleHost ""
      "\t\n" "blank.rs" sampleFiles 3 (some 0) (by decide) (by simp) hblank rfl
    obtain ⟨hiff, -⟩ := htrace _ (hposts "/api/trace" (by decide) (by decide +kernel))
    have hstatus : (answer plainConfig
        (posting "/api/trace" (TraceQuery.fields "\t\n" (some 0)))).status = 400 := by
      decide +kernel
    refine ⟨hstatus, fun h => ?_⟩
    have hsuccess := hiff.mpr h
    exact absurd (hstatus.symm.trans hsuccess) (by decide)

end Retrace.Service
