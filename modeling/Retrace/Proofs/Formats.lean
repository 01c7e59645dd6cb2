import Retrace.Graph.Read
import Retrace.Proofs.Value.Restores
import Retrace.Run.Failure
import Retrace.Trace.Read

/-!
What is written for a step, a graph, a native frame, a message of the compiler or a failed run is
read as the same again.

A record is storable when its numbers are within their types, and its values are free of floating
point numbers and not nested deeper than a reader goes.
-/
namespace Retrace

open Json Json.Reader Json.Record

variable {room limit : Nat}

/-- A number that may be missing, up to a limit. -/
def Within (limit : Nat) (o : Option Nat) : Prop := ∀ n ∈ o, n ≤ limit

instance (o : Option Nat) : Decidable (Within limit o) :=
  inferInstanceAs (Decidable (∀ n ∈ o, n ≤ limit))

/-- A value without floating point numbers, its integers of sixty-four bits and its lists nested
sixty deep at most. -/
@[mk_iff]
structure Value.Storable (v : Value) : Prop where
  exact : v.exact
  depth : v.depth ≤ 60

instance (v : Value) : Decidable v.Storable := decidable_of_iff' _ (Value.storable_iff v)

def Bindings.Storable (vs : Bindings) : Prop := ∀ row ∈ vs.rows, row.2.Storable

instance (vs : Bindings) : Decidable vs.Storable :=
  inferInstanceAs (Decidable (∀ row ∈ vs.rows, row.2.Storable))

/-- All slots that have a value have a storable one. -/
def Slots.Storable (ss : Slots) : Prop := ∀ row ∈ ss.rows, ∀ v ∈ row.2, v.Storable

instance (ss : Slots) : Decidable ss.Storable :=
  inferInstanceAs (Decidable (∀ row ∈ ss.rows, ∀ v ∈ row.2, v.Storable))

/-- A frame that is read as it is written. -/
@[mk_iff]
structure Frame.Storable (f : Frame) : Prop where
  parameters : Slots.Storable f.parameters
  locals : Slots.Storable f.locals
  line : Within 0xFFFFFFFF f.line

instance (f : Frame) : Decidable f.Storable := decidable_of_iff' _ (Frame.storable_iff f)

/-- A step that is read as it is written. -/
@[mk_iff]
structure Step.Storable (s : Step) : Prop where
  sequence : s.sequence ≤ 0xFFFFFFFFFFFFFFFF
  bindings : Bindings.Storable s.bindings
  stack : ∀ f ∈ s.stack, f.Storable
  line : Within 0xFFFFFFFF s.line

instance (s : Step) : Decidable s.Storable := decidable_of_iff' _ (Step.storable_iff s)

/-- A native frame with a line of thirty-two bits, if it has one. -/
def RawFrame.Storable (f : RawFrame) : Prop := Within 0xFFFFFFFF f.line

instance (f : RawFrame) : Decidable f.Storable :=
  inferInstanceAs (Decidable (Within 0xFFFFFFFF f.line))

/-- A message with a place of sixty-four bits, if it has one. -/
@[mk_iff]
structure Diagnostic.Storable (d : Diagnostic) : Prop where
  line : Within 0xFFFFFFFFFFFFFFFF d.line
  column : Within 0xFFFFFFFFFFFFFFFF d.column

instance (d : Diagnostic) : Decidable d.Storable := decidable_of_iff' _ (Diagnostic.storable_iff d)

/-! ### Lines, values and frames -/

theorem Line.restores_of_document {d : Json} {doc : Document} {l : Line}
    (h : Restores (Document.read room) d doc) (hl : Line.ofDocument doc = some l) :
    Restores (Line.read room) d l := by
  refine ⟨h.starts, fun r hr => ?_⟩
  rw [Line.read, bind_eq (h.takes r hr), hl]
  rfl

/-- A known line is read as its number and an unknown one as unknown. -/
theorem Line.restores {l : Line} (h : Within 0xFFFFFFFF l) (room : Nat) :
    Restores (Line.read room) (Line.toJson l) l := by
  cases l with
  | some n =>
    have hn : n ≤ 0xFFFFFFFF := h n rfl
    refine Line.restores_of_document (Document.restores_nat (by omega) room) ?_
    have hb : 0 ≤ (n : Int) ∧ (n : Int) ≤ 0xFFFFFFFF := by omega
    rw [Line.ofDocument, if_pos hb, Int.toNat_natCast]
  | none => exact Line.restores_of_document (Document.restores_text room Line.unknown) rfl

theorem Value.Storable.restores {v : Value} (h : v.Storable) (room : Nat) (hr : 121 ≤ room) :
    Restores (Value.read room) v.toJson v := by
  -- A level of nesting takes room twice, for the record of the list and for the list in it.
  have hd := h.depth
  exact Value.restores_toJson v room h.exact (by omega)

theorem Bindings.Storable.restores {vs : Bindings} (h : vs.Storable) (room : Nat)
    (hr : 121 ≤ room) : Restores (Bindings.read (room + 1)) vs.toJson vs :=
  restores_table fun row hrow => (h row hrow).restores room hr

/-- A slot without a value is null in the record, and one with a captured null is not. -/
theorem Slots.Storable.restores {ss : Slots} (h : ss.Storable) (room : Nat) (hr : 121 ≤ room) :
    Restores (Slots.read (room + 1)) ss.toJson ss :=
  restores_table fun row hrow =>
    restores_option fun v hv => ⟨(h row hrow v hv).restores room hr, Value.notNull_toJson v⟩

theorem Frame.Storable.restores {f : Frame} (h : f.Storable) (room : Nat) (hr : 123 ≤ room) :
    Restores (Frame.read (room + 1)) f.toJson f := by
  obtain ⟨room, rfl⟩ : ∃ k, room = k + 1 := ⟨room - 1, by omega⟩
  have hparameters := h.parameters.restores room (by omega)
  have hlocals := h.locals.restores room (by omega)
  have hfields := builds_first "functionName" Frame.mk (restores_text (room + 1) f.function)
    |>.required "parameters" hparameters (by simp)
    |>.required "localVariables" hlocals (by simp)
    |>.required "lineNumber" (Line.restores h.line _) (by simp)
  exact hfields.restores "StackFrame"

/-! ### Records -/

theorem Step.Storable.restores {s : Step} (h : s.Storable) (room : Nat) (hr : 125 ≤ room) :
    Restores (Step.read (room + 1)) s.toJson s := by
  -- The values of a frame are the deepest: the fields of the step, the stack, the fields of the
  -- frame and the slots are around them.
  obtain ⟨room, rfl⟩ : ∃ k, room = k + 2 := ⟨room - 2, by omega⟩
  have hbindings := h.bindings.restores (room + 1) (by omega)
  have hstack : Restores (Decoder.list Frame.read (room + 2)) (.list (s.stack.map Frame.toJson))
      s.stack := restores_list fun f hf => (h.stack f hf).restores room (by omega)
  have hfields := builds_first "sequence" Step.mk (restores_word64 h.sequence "u64" _)
    |>.required "function" (restores_text _ s.function) (by simp)
    |>.required "variables" hbindings (by simp)
    |>.required "callStack" hstack (by simp)
    |>.required "sourceLine" (Line.restores h.line _) (by simp)
    |>.required "action" (restores_text _ s.action) (by simp)
    |>.required "details" (restores_text _ s.details) (by simp)
  exact hfields.restores "TraceStep"

theorem GraphNode.restores (n : GraphNode) (room : Nat) :
    Restores (GraphNode.read (room + 2)) n.toJson n := by
  have hkind : Restores (NodeKind.read (room + 1)) (.text n.kind.name) n.kind :=
    restores_choice (by cases n.kind <;> rfl) _
  have hfields := builds_first "id" GraphNode.mk (restores_text _ n.id)
    |>.required "label" (restores_text _ n.label) (by simp)
    |>.required "kind" hkind (by simp)
    |>.required "parameters" (restores_texts room n.parameters) (by simp)
    |>.required "returnExpressions" (restores_texts room n.returnExpressions) (by simp)
    |>.required "children" (restores_texts room n.children) (by simp)
  exact hfields.restores "GraphNode"

theorem StaticGraph.restores (g : StaticGraph) (room : Nat) :
    Restores (StaticGraph.read (room + 3)) g.toJson g :=
  (restores_list fun n _ => n.restores room).map StaticGraph.mk

theorem RawFrame.Storable.restores {f : RawFrame} (h : f.Storable) (room : Nat) :
    Restores (RawFrame.read (room + 1)) f.toJson f := by
  have hfile : Restores (Decoder.option Decoder.text room) (.ofOption .text f.file) f.file :=
    restores_option fun s _ => ⟨restores_text room s, notNull_text s⟩
  have hline : Restores (Decoder.option Decoder.word32 room) (.ofOption .nat f.line) f.line :=
    restores_option fun n hn => ⟨restores_word32 (h n hn) room, notNull_nat n⟩
  have hfields := builds_first "symbol" RawFrame.mk (restores_text room f.symbol)
    |>.possible "file" hfile (by simp)
    |>.possible "line" hline (by simp)
  exact hfields.restores "RawFrame"

theorem restores_place {o : Option Nat} (h : Within 0xFFFFFFFFFFFFFFFF o) (room : Nat) :
    Restores (Decoder.option (Decoder.word64 "usize") room) (.ofOption .nat o) o :=
  restores_option fun n hn => ⟨restores_word64 (h n hn) "usize" room, notNull_nat n⟩

theorem Diagnostic.Storable.restores {d : Diagnostic} (h : d.Storable) (room : Nat) :
    Restores (Diagnostic.read (room + 1)) d.toJson d := by
  have hfields := builds_first "level" Diagnostic.mk (restores_text room d.level)
    |>.required "message" (restores_text room d.message) (by simp)
    |>.possible "line" (restores_place h.line room) (by simp)
    |>.possible "column" (restores_place h.column room) (by simp)
    |>.required "rendered" (restores_text room d.rendered) (by simp)
  exact hfields.restores "Diagnostic"

theorem RunFailure.restores (f : RunFailure) (room : Nat) :
    Restores (RunFailure.read (room + 1)) f.toJson f := by
  have hkind : Restores (FailureKind.read room) (.text f.kind.name) f.kind :=
    restores_choice (by cases f.kind <;> rfl) _
  have hfields := builds_first "kind" RunFailure.mk hkind
    |>.required "message" (restores_text room f.message) (by simp)
    |>.required "stack" (restores_text room f.stack) (by simp)
  exact hfields.restores "ExecutionFailure"

/-- What is written for a record is read as that record. -/
theorem runText_render_toJson :
    (∀ s : Step, s.Storable → Step.read.runText s.toJson.render.toList = .ok s) ∧
    (∀ g : StaticGraph, StaticGraph.read.runText g.toJson.render.toList = .ok g) ∧
    (∀ f : RawFrame, f.Storable → RawFrame.read.runText f.toJson.render.toList = .ok f) ∧
    (∀ d : Diagnostic, d.Storable → Diagnostic.read.runText d.toJson.render.toList = .ok d) ∧
    (∀ f : RunFailure, RunFailure.read.runText f.toJson.render.toList = .ok f) :=
  ⟨fun _ h => (h.restores _ (by decide)).runText, fun g => (g.restores _).runText,
    fun _ h => (h.restores _).runText, fun _ h => (h.restores _).runText,
    fun f => (f.restores _).runText⟩

/-- A step with an unknown line, a parameter without a value and one that is null. -/
def sampleStep : Step where
  sequence := 0xFFFFFFFFFFFFFFFF
  function := "place \"queen\""
  bindings := .ofRows [("board", .list [.int Value.leastInt, .list [.null, .char '"'], .list []]),
    ("\\path\n", .text "\t"), ("nest", Nat.repeat (fun v => .list [v]) 60 (.truth false))]
  stack := [.declared "main" ["args"] none,
    ⟨"place", .ofRows [("row", some .null), ("column", none)], .empty, some 0xFFFFFFFF⟩]
  line := none
  action := "try"
  details := ""

/-- A native frame without a file. -/
def sampleRawFrame : RawFrame := ⟨"queens::place", none, some 0xFFFFFFFF⟩

/-- A message about a line without a column. -/
def sampleDiagnostic : Diagnostic :=
  ⟨"error", "expected a semicolon", some 0xFFFFFFFFFFFFFFFF, none, "error: expected a semicolon\n"⟩

/-- The samples are storable, and each is read as it is written. -/
theorem runText_samples :
    (sampleStep.Storable ∧
      Step.read.runText sampleStep.toJson.render.toList = .ok sampleStep) ∧
    (sampleRawFrame.Storable ∧
      RawFrame.read.runText sampleRawFrame.toJson.render.toList = .ok sampleRawFrame) ∧
    (sampleDiagnostic.Storable ∧
      Diagnostic.read.runText sampleDiagnostic.toJson.render.toList = .ok sampleDiagnostic) := by
  have hs : sampleStep.Storable := by decide +kernel
  have hf : sampleRawFrame.Storable := by decide
  have hd : sampleDiagnostic.Storable := by decide
  obtain ⟨hstep, -, hframe, hdiagnostic, -⟩ := runText_render_toJson
  exact ⟨⟨hs, hstep _ hs⟩, ⟨hf, hframe _ hf⟩, ⟨hd, hdiagnostic _ hd⟩⟩

end Retrace
