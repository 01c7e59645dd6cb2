import Retrace.Proofs.Trace.Run
import Retrace.Trace.Replay

/-! What may be done to a collector in any order, and what its log looks like at every time. -/
namespace Retrace.Collector

open Text

/-- What may be done to a collector. -/
inductive Operation where
  | record (r : Recording)
  | ingest (text : List Char)
  | reset

variable {c : Collector} {d : Denylist} {t : Signatures} {r : Recording} {op : Operation}
  {ops : List Operation} {rs : List Recording}

/-- Does something to a collector. When an ingested text fails, the steps before that stay. -/
def apply (c : Collector) : Operation → Collector
  | .record r => c.take r
  | .ingest text => (c.ingest text).1
  | .reset => c.reset

def applyAll (c : Collector) (ops : List Operation) : Collector := ops.foldl apply c

/-- However a replay ends, what it has done is to take some recordings. -/
theorem exists_run_ingestLines (c : Collector) (number : Nat) (ls : List (List Char)) :
    ∃ rs, (c.ingestLines number ls).1 = c.run rs := by
  induction ls generalizing c number with
  | nil => exact ⟨[], rfl⟩
  | cons line rest ih =>
    rw [ingestLines]
    split
    · exact ih c (number + 1)
    · cases Event.read.runText line with
      | error why => exact ⟨[], rfl⟩
      | ok e =>
        obtain ⟨rs, hrs⟩ := ih (c.take e.recording) (number + 1)
        exact ⟨e.recording :: rs, hrs⟩

/-- Every operation but a reset takes some recordings. -/
theorem exists_run_apply (c : Collector) (op : Operation) :
    op = .reset ∨ ∃ rs, c.apply op = c.run rs := by
  cases op with
  | record r => exact Or.inr ⟨[r], rfl⟩
  | ingest text => exact Or.inr (exists_run_ingestLines c 1 (lines text))
  | reset => exact Or.inl rfl

/-- A run only adds to the log. -/
theorem steps_prefix_run (c : Collector) (rs : List Recording) : c.steps <+: (c.run rs).steps := by
  induction rs generalizing c with
  | nil => exact List.prefix_refl _
  | cons r rs ih => exact (List.prefix_append _ _).trans (ih (c.take r))

/-! ### The log -/

/-- The steps are numbered from one on, the number of the next one is known, and so is the stack of
the latest one. -/
structure Orderly (c : Collector) : Prop where
  numbered : c.steps.map Step.sequence = List.range' 1 c.steps.length
  next : c.next = c.steps.length + 1
  shadow : c.shadow = (c.steps.getLast?.map Step.stack).getD []

theorem orderly_new (d : Denylist) (t : Signatures) : Orderly (new d t) := ⟨rfl, rfl, rfl⟩

theorem Orderly.take (h : Orderly c) (r : Recording) : Orderly (c.take r) where
  numbered := by
    have hs : (c.stepFor r).sequence = 1 + c.steps.length := h.next.trans (Nat.add_comm _ _)
    rw [steps_take, List.map_append, List.length_append, h.numbered, List.length_singleton,
      List.range'_1_concat, List.map_singleton, hs]
  next := by
    have hn : (c.take r).next = c.next + 1 := rfl
    rw [hn, h.next, steps_take, List.length_append, List.length_singleton]
  shadow := by
    rw [steps_take, List.getLast?_append]
    rfl

theorem Orderly.run (h : Orderly c) (rs : List Recording) : Orderly (c.run rs) := by
  induction rs generalizing c with
  | nil => exact h
  | cons r rs ih => exact ih (h.take r)

theorem Orderly.apply (h : Orderly c) (op : Operation) : Orderly (c.apply op) := by
  rcases exists_run_apply c op with rfl | ⟨rs, hrs⟩
  · exact orderly_new c.denylist c.signatures
  · rw [hrs]
    exact h.run rs

theorem Orderly.applyAll (h : Orderly c) (ops : List Operation) : Orderly (c.applyAll ops) := by
  induction ops generalizing c with
  | nil => exact h
  | cons op ops ih => exact ih (h.apply op)

/-! ### Starting over -/

/-- What is left out and what is declared is settled when a collector is made. -/
theorem settings_apply (c : Collector) (op : Operation) :
    (c.apply op).denylist = c.denylist ∧ (c.apply op).signatures = c.signatures := by
  rcases exists_run_apply c op with rfl | ⟨rs, hrs⟩
  · exact ⟨rfl, rfl⟩
  · rw [hrs]
    exact ⟨denylist_run c rs, signatures_run c rs⟩

theorem settings_applyAll (c : Collector) (ops : List Operation) :
    (c.applyAll ops).denylist = c.denylist ∧ (c.applyAll ops).signatures = c.signatures := by
  induction ops generalizing c with
  | nil => exact ⟨rfl, rfl⟩
  | cons op ops ih =>
    obtain ⟨hd, ht⟩ := settings_apply c op
    obtain ⟨hd', ht'⟩ := ih (c.apply op)
    exact ⟨hd'.trans hd, ht'.trans ht⟩

/-- Nothing of what was done before is left after a reset. -/
theorem reset_applyAll_new (d : Denylist) (t : Signatures) (ops : List Operation) :
    ((new d t).applyAll ops).reset = new d t := by
  obtain ⟨hd, ht⟩ := settings_applyAll (new d t) ops
  have hr : ((new d t).applyAll ops).reset =
      new ((new d t).applyAll ops).denylist ((new d t).applyAll ops).signatures := rfl
  rw [hr, hd, ht]
  rfl

/-- Whatever has been done to a collector, its log is in order. Only a reset takes steps away or
changes them, and after a reset whatever is done leads to the steps that it leads to from the
start. -/
theorem history_orderly (d : Denylist) (t : Signatures) (ops : List Operation) :
    Orderly ((new d t).applyAll ops) ∧
      (∀ op, op = .reset ∨
        ((new d t).applyAll ops).steps <+: (((new d t).applyAll ops).apply op).steps) ∧
      ∀ later, ((((new d t).applyAll ops).apply .reset).applyAll later).steps =
        ((new d t).applyAll later).steps := by
  refine ⟨(orderly_new d t).applyAll ops, fun op => ?_, fun later => ?_⟩
  · rcases exists_run_apply ((new d t).applyAll ops) op with hop | ⟨rs, hrs⟩
    · exact Or.inl hop
    · rw [hrs]
      exact Or.inr (steps_prefix_run _ rs)
  · have hreset : ((new d t).applyAll ops).apply .reset = new d t := reset_applyAll_new d t ops
    rw [hreset]

end Retrace.Collector
