import Retrace.Proofs.Source.Sites

/-! The nodes that a walk through a tree meets, by their addresses: all of them, or all but those in
the arguments of invocations, in the order of the text and each of them once. -/
namespace Retrace.Source

variable {n m c : Node} {ns : List Node} {a b : Address} {i : Nat} {inner only : Bool}
  {β : Type} {f : Node → Option β}

def Form.isInvocation : Form → Bool
  | .invocation .. => true
  | _ => false

namespace Node

/-- Whether a walk passes over the arguments of a node. -/
def passes (inner : Bool) (n : Node) : Bool := !inner && n.form.isInvocation

mutual
/-- The addresses of the nodes that a walk meets, in its order. -/
def addresses (inner : Bool) : Node → List Address
  | mk form span children =>
    [] :: addressesAmong (passes inner (mk form span children)) inner 0 children

/-- The addresses of the nodes that a walk meets among some children, or only in the attributes
there, with the places counted from `i` on. -/
def addressesAmong (only inner : Bool) (i : Nat) : List Node → List Address
  | [] => []
  | n :: ns =>
    (if only && !n.isAttribute then [] else (n.addresses inner).map (i :: ·)) ++
      addressesAmong only inner (i + 1) ns
end

theorem addresses_eq (inner : Bool) (n : Node) :
    n.addresses inner = [] :: addressesAmong (n.passes inner) inner 0 n.children := by
  cases n
  rw [addresses]
  rfl

theorem preorderAll_eq (inner : Bool) (ns : List Node) :
    preorderAll inner ns = ns.flatMap (preorder inner) := by
  induction ns with
  | nil => rfl
  | cons n ns ih => rw [preorderAll, ih, List.flatMap_cons]

theorem preorderArguments_eq (inner : Bool) (ns : List Node) : preorderArguments inner ns =
    ns.flatMap fun c => if inner || c.isAttribute then c.preorder inner else [] := by
  induction ns with
  | nil => rfl
  | cons n ns ih => rw [preorderArguments, ih, List.flatMap_cons]

/-- The nodes that a walk meets among some children, or only in the attributes there. -/
def nodesAmong (only inner : Bool) (ns : List Node) : List Node :=
  ns.flatMap fun c => if only && !c.isAttribute then [] else c.preorder inner

theorem preorder_eq (inner : Bool) (n : Node) :
    n.preorder inner = n :: nodesAmong (n.passes inner) inner n.children := by
  obtain ⟨form, span, children⟩ := n
  unfold preorder
  refine congrArg _ ?_
  split
  · rw [preorderArguments_eq, nodesAmong]
    refine congrArg (List.flatMap · _) (funext fun c => ?_)
    cases inner <;> cases h : c.isAttribute <;> simp [passes, Form.isInvocation, Node.form]
  · rename_i hform
    have hpasses : passes inner (mk form span children) = false := by
      cases form with
      | invocation => exact absurd rfl (hform _ _ _ _ _)
      | _ => simp [passes, Form.isInvocation, Node.form]
    rw [preorderAll_eq, nodesAmong, hpasses]
    rfl

theorem addressesAmong_eq (only inner : Bool) (i : Nat) (ns : List Node) :
    addressesAmong only inner i ns = placed (addresses inner) only i ns := by
  induction ns generalizing i with
  | nil => rfl
  | cons n ns ih => rw [addressesAmong, ih, placed]

theorem mem_addressesAmong : a ∈ addressesAmong only inner i ns ↔
    ∃ k c b, a = (i + k) :: b ∧ ns[k]? = some c ∧ (only = true → c.isAttribute = true) ∧
      b ∈ c.addresses inner := by
  rw [addressesAmong_eq, mem_placed]

mutual
/-- A walk goes through the addresses in the order of the text. -/
theorem pairwise_addresses (inner : Bool) : (n : Node) → (n.addresses inner).Pairwise (· < ·)
  | mk form span children => by
    rw [addresses]
    refine List.pairwise_cons.mpr ⟨fun a ha => ?_, pairwise_addressesAmong _ inner 0 children⟩
    obtain ⟨k, c, b, rfl, -⟩ := mem_addressesAmong.mp ha
    exact List.nil_lt_cons _ _

theorem pairwise_addressesAmong (only inner : Bool) (i : Nat) :
    (ns : List Node) → (addressesAmong only inner i ns).Pairwise (· < ·)
  | [] => by simp [addressesAmong]
  | n :: ns => by
    rw [addressesAmong]
    refine List.pairwise_append.mpr ⟨?_, pairwise_addressesAmong only inner (i + 1) ns, ?_⟩
    · split
      · exact List.Pairwise.nil
      · exact List.pairwise_map.mpr ((pairwise_addresses inner n).imp fun h =>
          List.cons_lt_cons_iff.mpr (.inr ⟨rfl, h⟩))
    · intro a ha b hb
      obtain ⟨a, rfl, -⟩ := mem_place.mp ha
      obtain ⟨k, c, b, rfl, -⟩ := mem_addressesAmong.mp hb
      exact List.cons_lt_cons_iff.mpr (.inl (by omega))
end

mutual
/-- The nodes that a walk meets are those at its addresses. -/
theorem forall₂_preorder (inner : Bool) : (n : Node) →
    List.Forall₂ (fun a m => n.at? a = some m) (n.addresses inner) (n.preorder inner)
  | mk form span children => by
    have hbelow := forall₂_nodesAmong (passes inner (mk form span children)) inner 0 children
    rw [addresses_eq, preorder_eq]
    refine .cons rfl (hbelow.imp ?_)
    rintro a m ⟨k, c, b, rfl, hk, hb⟩
    rw [Nat.zero_add, at?]
    exact Option.bind_eq_some_iff.mpr ⟨c, hk, hb⟩

theorem forall₂_nodesAmong (only inner : Bool) (i : Nat) : (ns : List Node) →
    List.Forall₂ (fun a m => ∃ k c b, a = (i + k) :: b ∧ ns[k]? = some c ∧ c.at? b = some m)
      (addressesAmong only inner i ns) (nodesAmong only inner ns)
  | [] => .nil
  | n :: ns => by
    have hfirst := forall₂_preorder inner n
    have hrest := forall₂_nodesAmong only inner (i + 1) ns
    rw [addressesAmong, nodesAmong, List.flatMap_cons]
    refine List.rel_append ?_ ?_
    · split
      · exact .nil
      · exact List.forall₂_map_left_iff.mpr (hfirst.imp fun b m hb => ⟨0, n, b, rfl, rfl, hb⟩)
    · refine hrest.imp ?_
      rintro a m ⟨k, c, b, rfl, hk, hb⟩
      exact ⟨k + 1, c, b, by rw [Nat.add_right_comm, Nat.add_assoc], hk, hb⟩
end

end Node
end Retrace.Source
