import Mathlib.Data.Fintype.Card
import Mathlib.Data.List.Chain
import Mathlib.Logic.Relation
import Retrace.Graph.Multigraph

/-! Pruning leaves something of a directed graph exactly when there is a cycle. -/
namespace Retrace.Multigraph

open Relation

variable {m : Multigraph} {v w : Fin m.size} {vs ws : List (Fin m.size)} {k : Nat}

/-- An edge leads from a vertex to another. -/
def Edge (m : Multigraph) (v w : Fin m.size) : Prop := (v, w) ∈ m.edges

/-- Some vertex leads back to itself. -/
def Cyclic (m : Multigraph) : Prop := ∃ v, TransGen m.Edge v v

theorem mem_prune : v ∈ m.prune vs ↔ v ∈ vs ∧ ∃ w, m.Edge v w ∧ w ∈ vs := by
  simp only [prune, List.mem_filter, List.any_eq_true, decide_eq_true_eq, Edge]
  refine and_congr_right fun _ => ⟨?_, ?_⟩
  · rintro ⟨⟨_, w⟩, he, rfl, hw⟩
    exact ⟨w, he, hw⟩
  · rintro ⟨w, he, hw⟩
    exact ⟨(v, w), he, rfl, hw⟩

theorem pruneTimes_succ (k : Nat) (vs : List (Fin m.size)) :
    m.pruneTimes (k + 1) vs = m.prune (m.pruneTimes k vs) := by
  induction k generalizing vs with
  | zero => rfl
  | succ k ih => exact ih (m.prune vs)

/-- No round takes away a vertex that leads back to itself. -/
theorem mem_pruneTimes_of_cycle (h : TransGen m.Edge v v) (k : Nat) :
    v ∈ m.pruneTimes k (List.finRange m.size) := by
  induction k generalizing v with
  | zero => exact List.mem_finRange v
  | succ k ih =>
    obtain ⟨w, hvw, hwv⟩ := TransGen.head'_iff.mp h
    rw [pruneTimes_succ, mem_prune]
    exact ⟨ih h, w, hvw, ih (TransGen.tail' hwv hvw)⟩

/-- From what is left after some rounds a way of as many edges starts. -/
theorem exists_way_of_mem_pruneTimes (h : v ∈ m.pruneTimes k (List.finRange m.size)) :
    ∃ ws : List (Fin m.size), ws.length = k ∧ (v :: ws).IsChain m.Edge := by
  induction k generalizing v with
  | zero => exact ⟨[], rfl, List.isChain_singleton v⟩
  | succ k ih =>
    rw [pruneTimes_succ, mem_prune] at h
    obtain ⟨-, w, hvw, hw⟩ := h
    obtain ⟨ws, hlen, hway⟩ := ih hw
    exact ⟨w :: ws, by rw [List.length_cons, hlen], List.isChain_cons_cons.mpr ⟨hvw, hway⟩⟩

/-- Without cycles no way comes to a vertex twice. -/
theorem nodup_of_way (h : ¬ m.Cyclic) (hw : ws.IsChain m.Edge) : ws.Nodup := by
  have hway : ws.IsChain (TransGen m.Edge) := hw.imp fun _ _ => TransGen.single
  refine (List.isChain_iff_pairwise.mp hway).imp fun {v w} hvw he => ?_
  subst he
  exact h ⟨v, hvw⟩

theorem isCyclic_iff (m : Multigraph) : m.isCyclic = true ↔ m.Cyclic := by
  have hleft : m.isCyclic = true ↔ ∃ v, v ∈ m.pruneTimes m.size (List.finRange m.size) := by
    simp [isCyclic, List.eq_nil_iff_forall_not_mem]
  rw [hleft]
  constructor
  · rintro ⟨v, hv⟩
    by_contra hnone
    obtain ⟨ws, hlen, hway⟩ := exists_way_of_mem_pruneTimes hv
    have hle := (nodup_of_way hnone hway).length_le_card
    rw [List.length_cons, hlen, Fintype.card_fin] at hle
    omega
  · rintro ⟨v, hv⟩
    exact ⟨v, mem_pruneTimes_of_cycle hv m.size⟩

end Retrace.Multigraph
