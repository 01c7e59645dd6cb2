import Retrace.Proofs.Formats
import Retrace.Proofs.Source.Backtracking
import Retrace.Service.Request

/-! The answer to a question about a graph: the depth that it names is the one that the graph was
built with, whichever of the request, the environment and the default it comes from. -/
namespace Retrace

open Json Json.Record Source

variable {o : GraphOptions} {r : Routine} {g : StaticGraph} {source : String}

/-! ### Depths -/

namespace GraphOptions

/-- The depth is in the range that is allowed. -/
def Allowed (o : GraphOptions) : Prop := 1 ≤ o.maxDepth ∧ o.maxDepth ≤ 10

theorem allowed_ofDepth (depth : Nat) : (ofDepth depth).Allowed := by
  simp only [Allowed, ofDepth, clamp]
  omega

theorem Allowed.clamp_eq (h : o.Allowed) : clamp o.maxDepth = o.maxDepth := by
  obtain ⟨hlow, hhigh⟩ := h
  unfold clamp
  omega

end GraphOptions

/-- Whatever the variables of the environment hold, the depth that they ask for is allowed. -/
theorem Service.allowed_graphOptions (lookup : String → Option String) :
    (graphOptions lookup).Allowed := by
  unfold graphOptions
  cases (lookup "BTVIZ_MAX_DEPTH").bind RunOptions.number? with
  | none => exact ⟨by decide, by decide⟩
  | some depth => exact GraphOptions.allowed_ofDepth depth

namespace StaticGraph

/-- A routine that backtracks calls itself, so that it is unrolled to the depth that is asked for. -/
theorem levelCount_eq (hr : r.isBacktracking = true) (ho : o.Allowed) :
    levelCount r o = o.maxDepth := by
  have hcalls : r.callLines r.name ≠ [] := by
    rw [Routine.isBacktracking, Bool.and_eq_true, Bool.not_eq_true', List.isEmpty_eq_false_iff] at hr
    exact hr.1
  rw [levelCount, if_neg (fun h => hcalls (List.length_eq_zero_iff.mp h))]
  exact ho.clamp_eq

/-- The graph of a source text is a chain of as many levels as are asked for. -/
theorem exists_chain (h : ofSource source o = .ok g) (ho : o.Allowed) :
    ∃ l : Level, g = ⟨l.chain o.maxDepth⟩ := by
  cases hs : Snippet.read source with
  | error f =>
    rw [ofSource_of_broken hs] at h
    cases h
  | ok s =>
    cases hb : s.backtracking? with
    | none =>
      rw [ofSource_of_none hs hb] at h
      cases h
    | some r =>
      have hr : r.isBacktracking = true := List.find?_some hb
      rw [ofSource_of_some hs hb, ofRoutine_eq, levelCount_eq hr ho] at h
      exact ⟨_, (Except.ok.inj h).symm⟩

theorem length_chain (l : Level) (n : Nat) : (l.chain n).length = n + 2 := by
  simp [Level.chain]

theorem getLast?_chain (l : Level) (n : Nat) : (l.chain n).getLast? = some .exit := by
  simp only [Level.chain, List.getLast?_append, List.getLast?_singleton, Option.some_or]

end StaticGraph

namespace Service

/-! ### Answers -/

variable {c : Config} {q : Request} {α : Type} {query : Decoder α} {reply : α → Answer}

/-- What is posted to a path is answered by what the service has there. -/
theorem answer_posted {reply : Request → Answer} (hm : q.method = "POST")
    (hr : route? c q.route = some (["POST"], reply)) : answer c q = reply q := by
  have hpost : (["POST"].contains q.method) = true := by rw [hm]; rfl
  have hhead : (q.method == "HEAD") = false := by rw [hm]; rfl
  simp only [answer, hr, hpost, hhead, if_true, Bool.false_eq_true, if_false]

theorem answer_graph (hm : q.method = "POST") (hr : q.route = "/api/graph") :
    answer c q = withBody GraphQuery.read q (graphAnswer c presentGraph) :=
  answer_posted hm (by rw [hr]; rfl)

/-- A request is answered as its body asks for, or it is refused. -/
theorem withBody_cases (query : Decoder α) (q : Request) (reply : α → Answer) :
    (∃ a, query.run q.body = .ok a ∧ withBody query q reply = reply a) ∨
      (withBody query q reply).status ∈ [400, 413, 415, 422] := by
  unfold withBody
  split
  · exact Or.inr (by simp [Answer.plain])
  · split
    · exact Or.inr (by simp [Answer.plain])
    · cases query.run q.body with
      | ok a => exact Or.inl ⟨a, rfl, rfl⟩
      | error f =>
        refine Or.inr ?_
        simp only [rejection]
        split <;> simp [Answer.plain]

def GraphQuery.options (c : Config) (a : GraphQuery) : GraphOptions :=
  (a.maxDepth.map GraphOptions.ofDepth).getD c.graph

theorem GraphQuery.allowed_options (hc : c.graph.Allowed) (a : GraphQuery) :
    (a.options c).Allowed := by
  unfold GraphQuery.options
  cases a.maxDepth with
  | none => exact hc
  | some depth => exact GraphOptions.allowed_ofDepth depth

/-- A query about a graph is answered with the graph of its program, or it is refused. -/
theorem graphAnswer_cases (present : GraphOptions → StaticGraph → Answer) (a : GraphQuery) :
    (∃ g, StaticGraph.ofSource a.code (a.options c) = .ok g ∧
        graphAnswer c present a = present (a.options c) g) ∨
      (graphAnswer c present a).status ∈ [400, 422] := by
  unfold graphAnswer withCode
  split
  · exact Or.inr (by simp [Problem.noCode, Problem.answer, Answer.document])
  · cases h : StaticGraph.ofSource a.code (a.options c) with
    | ok g =>
      rw [GraphQuery.options] at h
      exact Or.inl ⟨g, rfl, by simp only [h, GraphQuery.options]⟩
    | error e =>
      rw [GraphQuery.options] at h
      simp only [h]
      cases e with
      | malformed e => exact absurd h (StaticGraph.ofSource_ne_malformed _ _ e)
      | broken f => exact Or.inr (by simp [Problem.ofAnalysis, Problem.answer, Answer.document])
      | noBacktracking =>
        exact Or.inr (by simp [Problem.ofAnalysis, Problem.answer, Answer.document])
      | noInstrumentation =>
        exact Or.inr (by simp [Problem.ofAnalysis, Problem.answer, Answer.document])

/-- A request for a graph is answered with the graph of its program, or it is refused. -/
theorem answer_graph_cases (hm : q.method = "POST") (hr : q.route = "/api/graph") :
    (∃ a g, GraphQuery.read.run q.body = .ok a ∧
        StaticGraph.ofSource a.code (a.options c) = .ok g ∧
        answer c q = presentGraph (a.options c) g) ∨
      (answer c q).status ∈ [400, 413, 415, 422] := by
  rw [answer_graph hm hr]
  rcases withBody_cases GraphQuery.read q (graphAnswer c presentGraph) with
    ⟨a, hread, hanswer⟩ | hrefused
  · rw [hanswer]
    rcases graphAnswer_cases (c := c) presentGraph a with ⟨g, hg, hpresent⟩ | hrefused
    · exact Or.inl ⟨a, g, hread, hg, hpresent⟩
    · refine Or.inr ?_
      rcases List.mem_pair.mp hrefused with h | h <;> simp [h]
  · exact Or.inr hrefused

/-! ### What is read in an answer -/

/-- The depth and the graph that an answer names. -/
structure GraphReply where
  depth : Nat
  graph : StaticGraph

/-- Reads the depth and the graph in the data of an answer. -/
def GraphReply.readData : Decoder GraphReply :=
  ((Record.required "maxDepth" (Decoder.word64 "usize")).map GraphReply.mk
    |>.apply (Record.required "nodes" StaticGraph.read)).read "GraphResponse"

def GraphReply.read : Decoder GraphReply :=
  ((Record.required "success" Decoder.truth).map (fun _ reply => reply)
    |>.apply (Record.required "data" GraphReply.readData)).read "ApiResponse"

theorem restores_truth (b : Bool) (room : Nat) : Restores (Decoder.truth room) (.truth b) b :=
  Decoder.reads_truth b room

theorem GraphReply.restores {depth : Nat} (hd : depth ≤ 0xFFFFFFFFFFFFFFFF) (g : StaticGraph)
    (room : Nat) :
    Restores (GraphReply.read (room + 5))
      (.record [("success", .truth true),
        ("data", .record [("maxDepth", .nat depth), ("nodes", g.toJson)])]) ⟨depth, g⟩ := by
  have hdata := builds_first "maxDepth" GraphReply.mk (restores_word64 hd "usize" (room + 3))
    |>.required "nodes" (g.restores room) (by simp)
  have hdata := hdata.restores "GraphResponse"
  have hfields := builds_first "success" (fun _ reply => reply) (restores_truth true (room + 4))
    |>.required "data" hdata (by simp)
  exact hfields.restores "ApiResponse"

/-- Whatever the environment asks for and whatever is posted to ask for a graph, the service does not
answer that something is wrong with itself. When it succeeds, the depth in its answer is the one that
was asked for, brought into the range from one to ten, and the nodes are two more than that, from the
entry to the exit. -/
theorem answer_names_depth (lookup : String → Option String) (run : RunOptions) (host : Host)
    (runId : String) (q : Request) (hm : q.method = "POST") (hr : q.route = "/api/graph") :
    let c : Config := ⟨graphOptions lookup, run, host, runId⟩
    (answer c q).status ≠ 500 ∧
      ((answer c q).status = 200 → ∃ a d g, GraphQuery.read.run q.body = .ok a ∧
        GraphReply.read.runText (answer c q).body.toList = .ok ⟨d, g⟩ ∧
        d = ((a.maxDepth.map GraphOptions.ofDepth).getD (graphOptions lookup)).maxDepth ∧
        1 ≤ d ∧ d ≤ 10 ∧ g.nodes.length = d + 2 ∧
        (g.nodes.head?.map fun n => (n.id, n.kind)) = some ("start", .start) ∧
        (g.nodes.getLast?.map fun n => (n.id, n.kind)) = some ("end", .terminal)) := by
  intro c
  have hc : c.graph.Allowed := allowed_graphOptions lookup
  rcases answer_graph_cases (c := c) hm hr with ⟨a, g, hread, hg, hanswer⟩ | hrefused
  · rw [hanswer]
    have hallowed := a.allowed_options hc
    have hword : (a.options c).maxDepth ≤ 0xFFFFFFFFFFFFFFFF := hallowed.2.trans (by decide)
    obtain ⟨l, rfl⟩ := StaticGraph.exists_chain hg hallowed
    have hreply := (GraphReply.restores hword ⟨l.chain (a.options c).maxDepth⟩ _).runText
    refine ⟨by simp [presentGraph, Answer.success, Answer.document], fun _ => ?_⟩
    refine ⟨a, _, _, hread, hreply, rfl, hallowed.1, hallowed.2,
      StaticGraph.length_chain l _, rfl, ?_⟩
    rw [StaticGraph.getLast?_chain]
    rfl
  · refine ⟨fun h => ?_, fun h => ?_⟩ <;> simp [h] at hrefused

def idleHost : Host where
  parent := .error .notFound
  path := ""
  name := ""
  hindrance _ := none
  launch _ folder := (.unstarted .notFound, folder)
  compile _ _ := .error .notFound

/-- An environment that asks for the greatest depth that is a number of sixty-four bits. -/
def deepEnvironment (name : String) : Option String :=
  if name = "BTVIZ_MAX_DEPTH" then some " 18446744073709551615 " else none

def deepConfig : Config := ⟨graphOptions deepEnvironment, .default, idleHost, ""⟩

/-- A question for the graph of a program, without a depth. -/
def walkRequest : Request where
  method := "POST"
  path := "/api/graph?"
  contentType := some "application/json"
  body := (Json.record [("code", .text StaticGraph.walkSource)]).render.toList.map some

/-- The environment decides on the depth, brought into the range. -/
theorem answer_names_depth_walk : walkRequest.method = "POST" ∧ walkRequest.route = "/api/graph" ∧
    (answer deepConfig walkRequest).status = 200 ∧
    ∃ g, GraphReply.read.runText (answer deepConfig walkRequest).body.toList = .ok ⟨10, g⟩ ∧
      g.nodes.length = 12 := by
  have hroute : walkRequest.route = "/api/graph" := by decide +kernel
  have hstatus : (answer deepConfig walkRequest).status = 200 := by decide +kernel
  have hbody : (GraphQuery.read.run walkRequest.body).toOption =
      some ⟨StaticGraph.walkSource, none⟩ := by decide +kernel
  obtain ⟨-, hreply⟩ := answer_names_depth deepEnvironment .default idleHost "" walkRequest rfl hroute
  obtain ⟨a, d, g, hread, hreply, hd, -, -, hlength, -⟩ := hreply hstatus
  rw [hread] at hbody
  obtain rfl : a = ⟨StaticGraph.walkSource, none⟩ := by simpa [Except.toOption] using hbody
  have hten : d = 10 := hd.trans (by decide +kernel)
  subst hten
  exact ⟨rfl, hroute, hstatus, g, hreply, hlength⟩

end Service

end Retrace
