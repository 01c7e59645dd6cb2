import Retrace.Trace.Event

/-! Runs of a collector: one recording after another. -/
namespace Retrace

/-- What a collector is told about one instrumentation call. -/
structure Recording where
  action : String
  details : String
  bindings : Bindings
  context : CallContext

def Event.recording (e : Event) : Recording :=
  ⟨e.action, e.details, Value.bindings e.values, e.context⟩

namespace Collector

variable {c : Collector} {rs : List Recording} {i : Nat} {r : Recording} {s : Step}

/-- The step that a recording gives rise to. -/
def stepFor (c : Collector) (r : Recording) : Step :=
  c.stepOf r.action r.details r.bindings r.context

def take (c : Collector) (r : Recording) : Collector :=
  c.record r.action r.details r.bindings r.context

def run (c : Collector) (rs : List Recording) : Collector := rs.foldl take c

theorem run_append (c : Collector) (rs qs : List Recording) :
    c.run (rs ++ qs) = (c.run rs).run qs := by
  simp [run]

theorem steps_take (c : Collector) (r : Recording) : (c.take r).steps = c.steps ++ [c.stepFor r] :=
  rfl

theorem length_steps_run (c : Collector) (rs : List Recording) :
    (c.run rs).steps.length = c.steps.length + rs.length := by
  induction rs generalizing c with
  | nil => rfl
  | cons r rs ih =>
    have h := ih (c.take r)
    rw [steps_take, List.length_append] at h
    simp only [run, List.foldl_cons, List.length_cons, List.length_nil] at h ⊢
    omega

theorem next_run (c : Collector) (rs : List Recording) : (c.run rs).next = c.next + rs.length := by
  induction rs generalizing c with
  | nil => rfl
  | cons r rs ih =>
    have h := ih (c.take r)
    have ht : (c.take r).next = c.next + 1 := rfl
    simp only [run, List.foldl_cons, List.length_cons] at h ⊢
    omega

theorem denylist_run (c : Collector) (rs : List Recording) : (c.run rs).denylist = c.denylist := by
  induction rs generalizing c with
  | nil => rfl
  | cons r rs ih => exact ih (c.take r)

theorem signatures_run (c : Collector) (rs : List Recording) :
    (c.run rs).signatures = c.signatures := by
  induction rs generalizing c with
  | nil => rfl
  | cons r rs ih => exact ih (c.take r)

/-- A run keeps the steps there were. -/
theorem getElem?_steps_run_of_lt (h : i < c.steps.length) :
    (c.run rs).steps[i]? = c.steps[i]? := by
  induction rs generalizing c with
  | nil => rfl
  | cons r rs ih =>
    have hi : i < (c.take r).steps.length := by
      rw [steps_take, List.length_append]
      omega
    have hrun : c.run (r :: rs) = (c.take r).run rs := rfl
    rw [hrun, ih hi, steps_take, List.getElem?_append_left h]

/-- The step of a recording is made in the state that the recordings before it lead to. -/
theorem getElem?_steps_run (c : Collector) (rs : List Recording) (i : Nat) :
    (c.run rs).steps[c.steps.length + i]? = rs[i]?.map (c.run (rs.take i)).stepFor := by
  induction rs generalizing c i with
  | nil => simp [run]
  | cons r rs ih =>
    have hrun : c.run (r :: rs) = (c.take r).run rs := rfl
    have hlen : (c.take r).steps.length = c.steps.length + 1 := by simp [steps_take]
    cases i with
    | zero =>
      rw [hrun, getElem?_steps_run_of_lt (by omega), steps_take]
      simp [run]
    | succ i =>
      have h := ih (c.take r) i
      rw [hlen, Nat.add_assoc, Nat.add_comm 1 i] at h
      rw [hrun, h]
      rfl

/-- In a run from the start the steps are numbered from one on. -/
theorem getElem?_steps_run_new (d : Denylist) (t : Signatures) (h : rs[i]? = some r) :
    ∃ c : Collector, c.next = i + 1 ∧ ((new d t).run rs).steps[i]? = some (c.stepFor r) := by
  have hstep := getElem?_steps_run (new d t) rs i
  have hnext := next_run (new d t) (rs.take i)
  have hi : i < rs.length := (List.getElem?_eq_some_iff.mp h).1
  rw [List.length_take, Nat.min_eq_left (Nat.le_of_lt hi)] at hnext
  exact ⟨_, hnext.trans (Nat.add_comm 1 i), by simpa [new, h] using hstep⟩

end Collector

end Retrace
