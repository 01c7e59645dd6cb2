import Mathlib.Data.List.Nodup
import Retrace.Graph.Unroll

/-! Which instrumentation calls of a source text are found: all but those inside the arguments of
another one, each of them once. -/
namespace Retrace.Source

/-- A way down a tree, as the places among the children. -/
abbrev Address := List Nat

variable {n m c : Node} {ns : List Node} {a b : Address} {i : Nat} {text : List Char}
  {enclosing : Option Enclosing} {site : Site} {source : String} {s : Snippet} {p : Form → Bool}

/-- Whether this is an instrumentation call. -/
def Form.isCall : Form → Bool
  | .invocation _ name _ _ _ => name = Site.invocationName
  | _ => false

def Form.invocationLine : Form → Nat
  | .invocation _ _ line _ _ => line
  | _ => 0

/-- The site of an instrumentation call, inside of a routine or not. -/
def Site.ofCall (text : List Char) (enclosing : Option Enclosing) (n : Node) : Site :=
  .ofArguments text enclosing n.form.invocationLine n.operands

namespace Node

/-- The node at an address. -/
def at? : Address → Node → Option Node
  | [], n => some n
  | i :: a, n => n.children[i]?.bind (at? a)

/-- The routine around the children of a node. -/
def inside (text : List Char) (enclosing : Option Enclosing) (n : Node) : Option Enclosing :=
  match n.form with
  | .routine s _ => some ⟨s.name, s.paramNames text⟩
  | _ => enclosing

/-- The routine around the node at an address. -/
def enclosingAt (text : List Char) (enclosing : Option Enclosing) :
    Address → Node → Option Enclosing
  | [], _ => enclosing
  | i :: a, n => (n.children[i]?.map (enclosingAt text (n.inside text enclosing) a)).getD enclosing

/-- There is an instrumentation call at the address. -/
def CallAt (n : Node) (a : Address) : Prop := (n.at? a).any (·.form.isCall) = true

/-- The address leads into an argument of a node with such a form. -/
def Below (p : Form → Bool) (n : Node) (a : Address) : Prop :=
  ∃ b i rest m argument, a = b ++ i :: rest ∧ n.at? b = some m ∧ p m.form = true ∧
    m.children[i]? = some argument ∧ argument.isAttribute = false

/-- The address leads into an argument of an instrumentation call. -/
def Covered (n : Node) (a : Address) : Prop := n.Below Form.isCall a

/-- The site is the one of the call at the address. -/
def Reports (text : List Char) (enclosing : Option Enclosing) (n : Node) (a : Address)
    (site : Site) : Prop :=
  ∃ m, n.at? a = some m ∧ site = .ofCall text (n.enclosingAt text enclosing a) m

mutual
/-- The addresses of the calls that are found at a node and below it. -/
def calls : Node → List Address
  | mk form _ children =>
    callsAmong form.isCall 0 children ++ if form.isCall then [[]] else []

/-- The addresses of the calls that are found among some children, or only in the attributes there,
with the places counted from `i` on. -/
def callsAmong (attributesOnly : Bool) (i : Nat) : List Node → List Address
  | [] => []
  | n :: ns =>
    (if attributesOnly && !n.isAttribute then [] else n.calls.map (i :: ·)) ++
      callsAmong attributesOnly (i + 1) ns
end

/-! ### Covered calls -/

theorem callAt_nil : n.CallAt [] ↔ n.form.isCall = true := by simp [CallAt, at?]

theorem callAt_cons : n.CallAt (i :: a) ↔ ∃ c, n.children[i]? = some c ∧ c.CallAt a := by
  rw [CallAt, at?]
  cases n.children[i]? <;> simp [CallAt]

theorem not_below_nil : ¬n.Below p [] := by
  rintro ⟨b, i, rest, m, argument, ha, -⟩
  simp at ha

theorem below_cons : n.Below p (i :: a) ↔ ∃ c, n.children[i]? = some c ∧
    ((p n.form = true ∧ c.isAttribute = false) ∨ c.Below p a) := by
  constructor
  · rintro ⟨b, j, rest, m, argument, ha, hb, hm, hj, harg⟩
    cases b with
    | nil =>
      obtain ⟨rfl, rfl⟩ := List.cons.inj ha
      obtain rfl := Option.some.inj hb
      exact ⟨argument, hj, .inl ⟨hm, harg⟩⟩
    | cons k b =>
      obtain ⟨rfl, rfl⟩ := List.cons.inj ha
      obtain ⟨c, hc, hb⟩ := Option.bind_eq_some_iff.mp hb
      exact ⟨c, hc, .inr ⟨b, j, rest, m, argument, rfl, hb, hm, hj, harg⟩⟩
  · rintro ⟨c, hc, ⟨hn, hattr⟩ | ⟨b, j, rest, m, argument, rfl, hb, hm, hj, harg⟩⟩
    · exact ⟨[], i, a, n, c, rfl, rfl, hn, hc, hattr⟩
    · exact ⟨i :: b, j, rest, m, argument, rfl, by simp [at?, hc, hb], hm, hj, harg⟩

theorem covered_of_argument (rest : Address) (h : (n.at? b).any
    (fun m => m.form.isCall && m.children[i]?.any (!·.isAttribute)) = true) :
    n.Covered (b ++ i :: rest) := by
  cases hb : n.at? b with
  | none => simp [hb] at h
  | some m =>
    cases hi : m.children[i]? with
    | none => simp [hb, hi] at h
    | some argument =>
      obtain ⟨hm, harg⟩ : m.form.isCall = true ∧ argument.isAttribute = false := by
        simpa [hb, hi] using h
      exact ⟨b, i, rest, m, argument, rfl, hb, hm, hi, harg⟩

/-- If there is a call at all, there is one that is not inside another one. -/
theorem exists_callAt_not_covered (h : n.CallAt a) : ∃ b, n.CallAt b ∧ ¬n.Covered b := by
  -- A covered call is inside a call at a shorter address.
  induction hk : a.length using Nat.strongRecOn generalizing a with
  | _ k ih =>
    by_cases hc : n.Covered a
    · obtain ⟨b, i, rest, m, argument, rfl, hb, hm, -⟩ := hc
      have hcall : n.CallAt b := by simp [CallAt, hb, hm]
      have hlt : b.length < k := by simp at hk; omega
      exact ih b.length hlt hcall rfl
    · exact ⟨a, h, hc⟩

/-! ### The calls that are found -/

theorem calls_eq (n : Node) : n.calls = callsAmong n.form.isCall 0 n.children ++
    if n.form.isCall then [[]] else [] := by
  cases n
  rw [calls]
  rfl

/-- The addresses that `f` finds in some children, or only in the attributes there, with the places
counted from `i` on. -/
def placed (f : Node → List Address) (only : Bool) (i : Nat) : List Node → List Address
  | [] => []
  | n :: ns =>
    (if only && !n.isAttribute then [] else (f n).map (i :: ·)) ++ placed f only (i + 1) ns

/-- The addresses that are found in one of several children, the place of which is `i`. -/
theorem mem_place {only : Bool} {as : List Address} :
    a ∈ (if only && !n.isAttribute then [] else as.map (i :: ·)) ↔
      ∃ b, a = i :: b ∧ (only = true → n.isAttribute = true) ∧ b ∈ as := by
  cases only <;> cases n.isAttribute <;> simp [eq_comm, and_comm]

theorem mem_placed {f : Node → List Address} {only : Bool} : a ∈ placed f only i ns ↔
    ∃ k c b, a = (i + k) :: b ∧ ns[k]? = some c ∧ (only = true → c.isAttribute = true) ∧
      b ∈ f c := by
  induction ns generalizing i with
  | nil => simp [placed]
  | cons n ns ih =>
    rw [placed, List.mem_append, ih, mem_place]
    constructor
    · rintro (⟨b, rfl, ho, hb⟩ | ⟨k, c, b, rfl, hk, ho, hb⟩)
      · exact ⟨0, n, b, rfl, rfl, ho, hb⟩
      · exact ⟨k + 1, c, b, by rw [Nat.add_right_comm, Nat.add_assoc], hk, ho, hb⟩
    · rintro ⟨k, c, b, rfl, hk, ho, hb⟩
      cases k with
      | zero =>
        obtain rfl := Option.some.inj hk
        exact .inl ⟨b, rfl, ho, hb⟩
      | succ k => exact .inr ⟨k, c, b, by rw [Nat.add_right_comm, Nat.add_assoc], hk, ho, hb⟩

theorem callsAmong_eq (only : Bool) (i : Nat) (ns : List Node) :
    callsAmong only i ns = placed calls only i ns := by
  induction ns generalizing i with
  | nil => rfl
  | cons n ns ih => rw [callsAmong, ih, placed]

theorem mem_callsAmong {only : Bool} : a ∈ callsAmong only i ns ↔
    ∃ k c b, a = (i + k) :: b ∧ ns[k]? = some c ∧ (only = true → c.isAttribute = true) ∧
      b ∈ c.calls := by
  rw [callsAmong_eq, mem_placed]

/-- What is found is every call that is not inside another one. -/
theorem mem_calls : a ∈ n.calls ↔ n.CallAt a ∧ ¬n.Covered a := by
  induction a generalizing n with
  | nil =>
    rw [calls_eq, List.mem_append, mem_callsAmong, callAt_nil]
    cases n.form.isCall <;> simp [Covered, not_below_nil]
  | cons i a ih =>
    have hown : (i :: a) ∉ (if n.form.isCall then [[]] else [] : List Address) := by
      cases n.form.isCall <;> simp
    rw [calls_eq, List.mem_append, or_iff_left hown, mem_callsAmong, callAt_cons, Covered,
      below_cons]
    constructor
    · rintro ⟨k, c, b, ha, hk, ho, hb⟩
      obtain ⟨rfl, rfl⟩ : i = k ∧ a = b := by simpa using ha
      obtain ⟨hcall, hnot⟩ := ih.mp hb
      refine ⟨⟨c, hk, hcall⟩, ?_⟩
      rintro ⟨c', hc', ⟨hn, hattr⟩ | hcov⟩
      · obtain rfl := Option.some.inj (hk.symm.trans hc')
        rw [ho hn] at hattr
        cases hattr
      · obtain rfl := Option.some.inj (hk.symm.trans hc')
        exact hnot hcov
    · rintro ⟨⟨c, hc, hcall⟩, hnot⟩
      refine ⟨i, c, a, by simp, hc, fun hn => ?_, ih.mpr ⟨hcall, fun hcov => ?_⟩⟩
      · cases hattr : c.isAttribute with
        | true => rfl
        | false => exact absurd ⟨c, hc, .inl ⟨hn, hattr⟩⟩ hnot
      · exact hnot ⟨c, hc, .inr hcov⟩

mutual
/-- No call is found twice. -/
theorem nodup_calls : (n : Node) → n.calls.Nodup
  | mk form span children => by
    rw [calls]
    refine List.nodup_append.mpr ⟨nodup_callsAmong _ 0 children, ?_, ?_⟩
    · cases form.isCall <;> simp
    · rintro a ha b hb rfl
      obtain ⟨k, c, b, rfl, -⟩ := mem_callsAmong.mp ha
      cases h : form.isCall <;> simp [h] at hb

theorem nodup_callsAmong (only : Bool) (i : Nat) : (ns : List Node) → (callsAmong only i ns).Nodup
  | [] => by simp [callsAmong]
  | n :: ns => by
    rw [callsAmong]
    refine List.nodup_append.mpr ⟨?_, nodup_callsAmong only (i + 1) ns, ?_⟩
    · split
      · exact List.nodup_nil
      · exact (nodup_calls n).map List.cons_injective
    · rintro a ha b hb rfl
      obtain ⟨b, rfl, -⟩ := mem_place.mp ha
      obtain ⟨k, c, b', hk, -⟩ := mem_callsAmong.mp hb
      have := (List.cons.inj hk).1
      omega
end

/-! ### The sites that are reported -/

/-- The sites of some children, or only of the attributes there. -/
def sitesAmong (only : Bool) (text : List Char) (enclosing : Option Enclosing) (ns : List Node) :
    List Site :=
  if only then attributeSites text enclosing ns else nodeSites text enclosing ns

theorem sitesAmong_cons {only : Bool} : sitesAmong only text enclosing (n :: ns) =
    (if only && !n.isAttribute then [] else n.sites text enclosing) ++
      sitesAmong only text enclosing ns := by
  cases only with
  | false => rfl
  | true => cases h : n.isAttribute <;> simp [sitesAmong, attributeSites, h]

theorem sites_eq (text : List Char) (enclosing : Option Enclosing) (n : Node) :
    n.sites text enclosing = sitesAmong n.form.isCall text (n.inside text enclosing) n.children ++
      if n.form.isCall then [.ofCall text enclosing n] else [] := by
  obtain ⟨form, span, children⟩ := n
  unfold Node.sites
  split
  · simp [sitesAmong, Form.isCall, inside, Node.form, Node.children]
  · rename_i name line _ _
    by_cases h : name = Site.invocationName
    · simp [h, sitesAmong, Form.isCall, inside, Site.ofCall, operands, Form.invocationLine,
        Node.form, Node.children]
    · simp [h, sitesAmong, Form.isCall, inside, Node.form, Node.children]
  · rename_i hroutine hinvocation
    have hcall : form.isCall = false := by
      unfold Form.isCall
      split
      · exact absurd rfl (hinvocation _ _ _ _ _)
      · rfl
    have hinside : inside text enclosing (mk form span children) = enclosing := by
      unfold inside Node.form
      split
      · rename_i h
        exact absurd h (hroutine _ _)
      · rfl
    simp [hinside, hcall, sitesAmong, Node.form, Node.children]

theorem reports_nil : n.Reports text enclosing [] site ↔ site = .ofCall text enclosing n := by
  simp [Reports, at?, enclosingAt]

theorem reports_cons (hc : n.children[i]? = some c) : n.Reports text enclosing (i :: a) site ↔
    c.Reports text (n.inside text enclosing) a site := by
  simp [Reports, at?, enclosingAt, hc]

-- A node and the list of its children are reported together. In the list an address starts with the
-- place of a child, counted from `i` on, which goes up by one for the rest of the list.
mutual
/-- The sites that are reported are those of the calls that are found, in the same order. -/
theorem forall₂_reports (text : List Char) (enclosing : Option Enclosing) : (n : Node) →
    List.Forall₂ (n.Reports text enclosing) n.calls (n.sites text enclosing)
  | mk form span children => by
    have hbelow := forall₂_reportsAmong form.isCall text
      (inside text enclosing (mk form span children)) 0 children
    rw [calls_eq, sites_eq]
    refine List.rel_append ?_ ?_
    · refine hbelow.imp ?_
      rintro a site ⟨k, c, b, rfl, hk, hr⟩
      rw [Nat.zero_add]
      exact (reports_cons hk).mpr hr
    · cases (mk form span children).form.isCall with
      | true => exact .cons (reports_nil.mpr rfl) .nil
      | false => exact .nil

theorem forall₂_reportsAmong (only : Bool) (text : List Char) (enclosing : Option Enclosing)
    (i : Nat) : (ns : List Node) → List.Forall₂ (fun a site => ∃ k c b, a = (i + k) :: b ∧
      ns[k]? = some c ∧ c.Reports text enclosing b site)
      (callsAmong only i ns) (sitesAmong only text enclosing ns)
  | [] => by cases only <;> exact .nil
  | n :: ns => by
    have hfirst := forall₂_reports text enclosing n
    have hrest := forall₂_reportsAmong only text enclosing (i + 1) ns
    rw [callsAmong, sitesAmong_cons]
    refine List.rel_append ?_ ?_
    · split
      · exact .nil
      · refine List.forall₂_map_left_iff.mpr (hfirst.imp fun b site hr => ?_)
        exact ⟨0, n, b, rfl, rfl, hr⟩
    · refine hrest.imp ?_
      rintro a site ⟨k, c, b, rfl, hk, hr⟩
      exact ⟨k + 1, c, b, by rw [Nat.add_right_comm, Nat.add_assoc], hk, hr⟩
end

end Node

theorem map_sequence_stepsFrom (k : Nat) (ss : List Site) :
    (stepsFrom k ss).map Step.sequence = List.range' k ss.length := by
  induction ss generalizing k with
  | nil => rfl
  | cons s ss ih =>
    have hs : (s.step k).sequence = k := rfl
    simp [stepsFrom, List.range'_succ, ih, hs]

def Snippet.root (s : Snippet) : Node := .mk .other ⟨.origin, 0⟩ s.items

theorem Snippet.sites_root (s : Snippet) : s.root.sites s.text none = s.sites := by
  simp [root, Node.sites, sites]

/-- The steps that a source text announces are those of its calls, if there are any. -/
theorem staticTrace_of_read (hs : Snippet.read source = .ok s) : staticTrace source =
    if s.sites.isEmpty then .error .noInstrumentation else .ok (stepsFrom 1 s.sites) := by
  unfold staticTrace
  rw [hs]

/-- The addresses of the instrumentation calls that are not inside the arguments of another one are
the ones that are reported, each once. They are none only if there is no call at all, and then the
source text announces no steps; otherwise its steps are those of the reported calls, numbered from
one on. -/
theorem reported_calls (hs : Snippet.read source = .ok s) :
    ∃ calls : List Address, calls.Nodup ∧
      (∀ a, a ∈ calls ↔ s.root.CallAt a ∧ ¬s.root.Covered a) ∧
      List.Forall₂ (s.root.Reports s.text none) calls s.sites ∧
      (staticTrace source = .error .noInstrumentation ↔ ∀ a, ¬s.root.CallAt a) ∧
      ((∃ a, s.root.CallAt a) → staticTrace source = .ok (stepsFrom 1 s.sites) ∧
        (stepsFrom 1 s.sites).map Step.sequence = List.range' 1 calls.length) := by
  have hreports : List.Forall₂ (s.root.Reports s.text none) s.root.calls s.sites := by
    rw [← s.sites_root]
    exact Node.forall₂_reports s.text none s.root
  have htrace := staticTrace_of_read hs
  have hempty : s.sites.isEmpty = true ↔ ∀ a, ¬s.root.CallAt a := by
    rw [List.isEmpty_iff, ← List.length_eq_zero_iff, ← hreports.length_eq, List.length_eq_zero_iff]
    constructor
    · intro hnone a ha
      obtain ⟨b, hb⟩ := Node.exists_callAt_not_covered ha
      rw [← Node.mem_calls, hnone] at hb
      cases hb
    · intro hnone
      refine List.eq_nil_iff_forall_not_mem.mpr fun a ha => ?_
      exact hnone a (Node.mem_calls.mp ha).1
  refine ⟨s.root.calls, Node.nodup_calls _, fun a => Node.mem_calls, hreports, ?_, ?_⟩
  · rw [htrace, ← hempty]
    cases s.sites.isEmpty <;> simp
  · rintro ⟨a, ha⟩
    have hsome : s.sites.isEmpty = false := by
      rw [Bool.eq_false_iff, Ne, hempty]
      exact fun hnone => hnone a ha
    refine ⟨?_, ?_⟩
    · rw [htrace, hsome, if_neg Bool.false_ne_true]
    · rw [map_sequence_stepsFrom, hreports.length_eq]

/-- A call with another one inside its last argument. -/
def nestedSource : String :=
  "fn main() \x7b capture_step!(\"outer\", \"\", \"n\", \x7b capture_step!(\"inner\", \"\"); 1 \x7d); \x7d"

/-- Of two calls, one inside the other, only the outer one is reported. -/
theorem reported_calls_nested : ∃ s, Snippet.read nestedSource = .ok s ∧
    s.root.CallAt [0, 0, 0] ∧ s.root.CallAt [0, 0, 0, 3, 0, 0] ∧
    ∃ calls : List Address, calls.length = 1 ∧ [0, 0, 0, 3, 0, 0] ∉ calls ∧
      List.Forall₂ (s.root.Reports s.text none) calls s.sites ∧
      ∃ steps, staticTrace nestedSource = .ok steps ∧ steps.map Step.sequence = [1] := by
  have hfacts : (Snippet.read nestedSource).toOption.any (fun s => s.sites.length == 1 &&
      (s.root.at? [0, 0, 0]).any (·.form.isCall) &&
      (s.root.at? [0, 0, 0, 3, 0, 0]).any (·.form.isCall) &&
      (s.root.at? [0, 0, 0]).any fun m => m.form.isCall && m.children[3]?.any (!·.isAttribute)) =
        true := by decide +kernel
  cases hs : Snippet.read nestedSource with
  | error f => rw [hs] at hfacts; cases hfacts
  | ok s =>
    simp only [hs, Except.toOption, Option.any, Bool.and_eq_true, beq_iff_eq] at hfacts
    obtain ⟨⟨⟨hlength, houter⟩, hinner⟩, hargument⟩ := hfacts
    obtain ⟨calls, -, hmem, hreports, -, htrace⟩ := reported_calls hs
    have hcovered : s.root.Covered [0, 0, 0, 3, 0, 0] := Node.covered_of_argument [0, 0] hargument
    obtain ⟨hsteps, hnumbers⟩ := htrace ⟨_, houter⟩
    have hcalls : calls.length = 1 := hreports.length_eq.trans hlength
    rw [hcalls] at hnumbers
    exact ⟨s, rfl, houter, hinner, calls, hcalls, fun h => ((hmem _).mp h).2 hcovered, hreports,
      _, hsteps, hnumbers⟩

end Retrace.Source
