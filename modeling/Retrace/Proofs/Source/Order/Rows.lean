import Mathlib.Order.Nat
import Retrace.Proofs.Source.Addresses
import Retrace.Source.Statement

/-! Where the calls below a node stand: between which lines, and in which order. -/
namespace Retrace.Source

variable {lo hi lo' hi' m : Nat} {n : Node} {ns ms : List Node} {form : Form} {span : Span}
  {start : Place}

namespace Form

/-- Whether the parts of a node are visited in another order than that of the text: an item has
where clauses after what they constrain, and attributes inside its body. -/
def declares : Form → Bool
  | .routine .. | .unit _ | .inherent _ | .other => true
  | _ => false

/-- Whether the attributes at the start of the body of a node are visited before its other parts. -/
def encloses : Form → Bool
  | .loop | .block => true
  | _ => false

/-- Whether a node of the form starts where the first call below it may start: it is a path, which
may be called, or the call of a path. -/
def leads : Form → Bool
  | .path .. | .call (some _) => true
  | _ => false

/-- Whether a node of the form is neither called nor a call by a name. -/
def plain : Form → Bool
  | .path .. | .call (some _) | .method .. => false
  | _ => true

end Form

namespace Node

/-- The line where something is called or may be. -/
def site? (n : Node) : Option Nat :=
  match n.form with
  | .path .. | .call (some _) => some n.line
  | .method _ line => some line
  | _ => none

/-- The lines of all calls and paths below a node. -/
def lines (n : Node) : List Nat := (n.preorder true).filterMap site?

/-- No call or path below a node stands on a line after one below another node. -/
def Before (c d : Node) : Prop := ∀ x ∈ c.lines, ∀ y ∈ d.lines, x ≤ y

/-- Whether a child of a node may stand in the text after those that are visited after it. -/
def lifts (n c : Node) : Bool := n.form.declares || n.form.encloses && c.isAttribute

/-- A path and the call of one start before what is below them, and the children of a node stand in
the order in which they are visited, unless the node lifts one of them. -/
structure Tidy (n : Node) : Prop where
  leads : n.form.leads = true → ∀ c ∈ n.children, ∀ x ∈ c.lines, n.line ≤ x
  children : n.children.Pairwise fun c d => n.lifts c = false → c.Before d

/-- The calls and paths below a node stand between two lines. -/
structure Lies (lo hi : Nat) (n : Node) : Prop where
  le : lo ≤ hi
  lines : ∀ x ∈ n.lines, lo ≤ x ∧ x ≤ hi
  tidy : ∀ d ∈ n.preorder true, d.Tidy

theorem preorder_true (n : Node) : n.preorder true = n :: n.children.flatMap (preorder true) := by
  rw [preorder_eq]
  rfl

theorem lines_eq (n : Node) : n.lines = n.site?.toList ++ n.children.flatMap lines := by
  rw [lines, preorder_true, List.filterMap_cons, List.filterMap_flatMap]
  cases n.site? <;> rfl

theorem mem_lines {x : Nat} : x ∈ n.lines ↔ n.site? = some x ∨ ∃ c ∈ n.children, x ∈ c.lines := by
  rw [lines_eq, List.mem_append, Option.mem_toList, List.mem_flatMap]

theorem Lies.child (h : n.Lies lo hi) {c : Node} (hc : c ∈ n.children) : c.Lies lo hi where
  le := h.le
  lines x hx := h.lines x (mem_lines.mpr (.inr ⟨c, hc, hx⟩))
  tidy d hd := by
    refine h.tidy d ?_
    rw [preorder_true]
    exact List.mem_cons_of_mem n (List.mem_flatMap.mpr ⟨c, hc, hd⟩)

/-- A node lies where its children do, if it is tidy and stands there itself. -/
theorem lies_of (hle : lo ≤ hi) (hsite : ∀ x, n.site? = some x → lo ≤ x ∧ x ≤ hi) (ht : n.Tidy)
    (hc : ∀ c ∈ n.children, c.Lies lo hi) : n.Lies lo hi where
  le := hle
  lines x hx := by
    rcases mem_lines.mp hx with hx | ⟨c, hcn, hx⟩
    · exact hsite x hx
    · exact (hc c hcn).lines x hx
  tidy d hd := by
    rw [preorder_true] at hd
    rcases List.mem_cons.mp hd with rfl | hd
    · exact ht
    · obtain ⟨c, hcn, hd⟩ := List.mem_flatMap.mp hd
      exact (hc c hcn).tidy d hd

end Node

open Node

/-! ### Nodes in a row -/

/-- Nodes stand one after the other between two lines. -/
def Row (lo hi : Nat) : List Node → Prop
  | [] => lo ≤ hi
  | n :: ns => ∃ m, n.Lies lo m ∧ Row m hi ns

/-- Nodes stand anywhere between two lines. -/
def Strewn (lo hi : Nat) (ns : List Node) : Prop := lo ≤ hi ∧ ∀ n ∈ ns, n.Lies lo hi

theorem Node.Lies.mono (h : n.Lies lo hi) (hlo : lo' ≤ lo) (hhi : hi ≤ hi') : n.Lies lo' hi' where
  le := hlo.trans (h.le.trans hhi)
  lines x hx := ⟨hlo.trans (h.lines x hx).1, (h.lines x hx).2.trans hhi⟩
  tidy := h.tidy

theorem Row.le (h : Row lo hi ns) : lo ≤ hi := by
  induction ns generalizing lo with
  | nil => exact h
  | cons n ns ih =>
    obtain ⟨m, hn, hns⟩ := h
    exact hn.le.trans (ih hns)

theorem Row.mono (h : Row lo hi ns) (hlo : lo' ≤ lo) (hhi : hi ≤ hi') : Row lo' hi' ns := by
  induction ns generalizing lo lo' with
  | nil => exact hlo.trans (h.trans hhi)
  | cons n ns ih =>
    obtain ⟨m, hn, hns⟩ := h
    exact ⟨m, hn.mono hlo (Nat.le_refl _), ih hns (Nat.le_refl _)⟩

theorem Row.append (h : Row lo m ns) (h' : Row m hi ms) : Row lo hi (ns ++ ms) := by
  induction ns generalizing lo with
  | nil => exact h'.mono h (Nat.le_refl _)
  | cons n ns ih =>
    obtain ⟨k, hn, hns⟩ := h
    exact ⟨k, hn, ih hns⟩

theorem Row.split (h : Row lo hi (ns ++ ms)) : ∃ m, Row lo m ns ∧ Row m hi ms := by
  induction ns generalizing lo with
  | nil => exact ⟨lo, Nat.le_refl _, h⟩
  | cons n ns ih =>
    obtain ⟨k, hn, h⟩ := h
    obtain ⟨m, hns, hms⟩ := ih h
    exact ⟨m, ⟨k, hn, hns⟩, hms⟩

theorem Row.sublist (h : Row lo hi ns) (hs : ms.Sublist ns) : Row lo hi ms := by
  induction hs generalizing lo with
  | slnil => exact h
  | cons n _ ih =>
    obtain ⟨m, hn, hns⟩ := h
    exact (ih hns).mono hn.le (Nat.le_refl _)
  | cons_cons n _ ih =>
    obtain ⟨m, hn, hns⟩ := h
    exact ⟨m, hn, ih hns⟩

theorem Row.strewn (h : Row lo hi ns) : Strewn lo hi ns := by
  refine ⟨h.le, ?_⟩
  induction ns generalizing lo with
  | nil => exact nofun
  | cons n ns ih =>
    obtain ⟨m, hn, hns⟩ := h
    exact List.forall_mem_cons.mpr ⟨hn.mono (Nat.le_refl _) hns.le,
      fun c hc => (ih hns c hc).mono hn.le (Nat.le_refl _)⟩

theorem row_singleton : Row lo hi [n] ↔ n.Lies lo hi :=
  ⟨fun ⟨_, hn, hm⟩ => hn.mono (Nat.le_refl _) hm, fun h => ⟨hi, h, Nat.le_refl _⟩⟩

theorem pairwise_of_before {p : Node → Bool} (h : ns.Pairwise Before) :
    ns.Pairwise fun c d => p c = false → c.Before d := by
  refine h.imp ?_
  intro c d hcd _
  exact hcd

theorem Row.pairwise (h : Row lo hi ns) : ns.Pairwise Before := by
  induction ns generalizing lo with
  | nil => exact .nil
  | cons n ns ih =>
    obtain ⟨m, hn, hns⟩ := h
    exact .cons (fun d hd x hx y hy => (hn.lines x hx).2.trans ((hns.strewn.2 d hd).lines y hy).1)
      (ih hns)

theorem Row.pairwise_of_lifts {p : Node → Bool} (h : Row lo hi ns) :
    ns.Pairwise fun c d => p c = false → c.Before d :=
  pairwise_of_before h.pairwise

theorem Strewn.mono (h : Strewn lo hi ns) (hlo : lo' ≤ lo) (hhi : hi ≤ hi') : Strewn lo' hi' ns :=
  ⟨hlo.trans (h.1.trans hhi), fun n hn => (h.2 n hn).mono hlo hhi⟩

/-- How the nodes stand that a reader has read: in a row, or anywhere. -/
inductive Arrangement where
  | row
  | strewn

/-- Nodes stand between two lines as an arrangement says. -/
def Arranged : Arrangement → Nat → Nat → List Node → Prop
  | .row => Row
  | .strewn => Strewn

variable {k : Arrangement}

namespace Arranged

theorem strewn (h : Arranged k lo hi ns) : Strewn lo hi ns := by
  cases k with
  | row => exact Row.strewn h
  | strewn => exact h

theorem le (h : Arranged k lo hi ns) : lo ≤ hi := h.strewn.1

theorem mono (h : Arranged k lo hi ns) (hlo : lo' ≤ lo) (hhi : hi ≤ hi') :
    Arranged k lo' hi' ns := by
  cases k with
  | row => exact Row.mono h hlo hhi
  | strewn => exact Strewn.mono h hlo hhi

theorem append (h : Arranged k lo m ns) (h' : Arranged k m hi ms) :
    Arranged k lo hi (ns ++ ms) := by
  cases k with
  | row => exact Row.append h h'
  | strewn =>
    refine ⟨h.1.trans h'.1, List.forall_mem_append.mpr ⟨fun n hn => ?_, fun n hn => ?_⟩⟩
    · exact (h.2 n hn).mono (Nat.le_refl _) h'.1
    · exact (h'.2 n hn).mono h.1 (Nat.le_refl _)

theorem sublist (h : Arranged k lo hi ns) (hs : ms.Sublist ns) : Arranged k lo hi ms := by
  cases k with
  | row => exact Row.sublist h hs
  | strewn => exact ⟨h.1, fun n hn => h.2 n (hs.subset hn)⟩

theorem of_row (h : Row lo hi ns) : Arranged k lo hi ns := by
  cases k with
  | row => exact h
  | strewn => exact h.strewn

theorem singleton : Arranged k lo hi [n] ↔ n.Lies lo hi := by
  cases k with
  | row => exact row_singleton
  | strewn => exact ⟨fun h => h.2 n (List.mem_singleton_self n),
      fun h => ⟨h.le, List.forall_mem_singleton.mpr h⟩⟩

end Arranged

/-! ### Nodes from their children -/

namespace Node

variable {children attributes rest args : List Node} {e : Node} {whole callee : Option String}
  {name last : String} {line stop : Nat}

theorem of_plain (h : n.form.plain = true) : n.form.leads = false ∧ n.site? = none := by
  obtain ⟨form, span, children⟩ := n
  cases form with
  | path => cases h
  | method => cases h
  | call callee =>
    cases callee with
    | some callee => cases h
    | none => exact ⟨rfl, rfl⟩
  | _ => exact ⟨rfl, rfl⟩

theorem lies_plain (hf : form.plain = true) (hs : Strewn lo hi children)
    (hc : children.Pairwise fun c d => (mk form span children).lifts c = false → c.Before d) :
    (mk form span children).Lies lo hi := by
  obtain ⟨hleads, hsite⟩ := of_plain (n := mk form span children) hf
  refine lies_of hs.1 (fun x hx => ?_) ⟨fun h => ?_, hc⟩ hs.2
  · cases hsite.symm.trans hx
  · cases hleads.symm.trans h

theorem lies_row (hf : form.plain = true) (h : Row lo hi children) :
    (mk form span children).Lies lo hi :=
  lies_plain hf h.strewn h.pairwise_of_lifts

theorem lies_declares (hf : form.declares = true) (h : Strewn lo hi children) :
    (mk form span children).Lies lo hi := by
  refine lies_plain (by cases form <;> first | rfl | cases hf) h ?_
  refine List.pairwise_of_forall fun {c d} hlifts => ?_
  rw [lifts, Node.form, hf] at hlifts
  cases hlifts

/-- Nodes that stand anywhere, taken for one. -/
def packed (ns : List Node) : Node := mk .other ⟨.origin, 0⟩ ns

@[simp] theorem children_packed (ns : List Node) : (packed ns).children = ns := rfl

theorem lies_encloses (hf : form.encloses = true) (h : Strewn lo hi (attributes ++ rest))
    (ha : ∀ a ∈ attributes, a.isAttribute = true) (hr : Row lo hi rest) :
    (mk form span (attributes ++ rest)).Lies lo hi := by
  refine lies_plain (by cases form <;> first | rfl | cases hf) h ?_
  have hlifts {a d : Node} (hm : a ∈ attributes)
      (hnot : (mk form span (attributes ++ rest)).lifts a = false) : a.Before d := by
    rw [lifts, Node.form, hf, ha a hm, Bool.and_true, Bool.or_true] at hnot
    cases hnot
  refine List.pairwise_append.mpr ⟨?_, hr.pairwise_of_lifts, fun a hm _ _ => hlifts hm⟩
  exact List.pairwise_of_forall_mem_list fun a hm _ _ => hlifts hm

/-- The call of a path starts where the path does. -/
theorem lies_call (he : e.form = .path whole last) (h : Row lo hi (e :: args))
    (hstart : span.start = e.span.start) : (mk (.call callee) span (e :: args)).Lies lo hi := by
  have hsite : e.site? = some e.line := by rw [site?, he]
  obtain ⟨m, hl, hargs⟩ := id h
  have hmem : e.line ∈ e.lines := mem_lines.mpr (.inl hsite)
  have hline : (mk (.call callee) span (e :: args)).line = e.line := congrArg Place.line hstart
  refine lies_of h.le (fun x hx => ?_) ⟨fun _ => ?_, h.pairwise_of_lifts⟩ h.strewn.2
  · obtain rfl : e.line = x := by
      cases callee with
      | none => cases hx
      | some callee => exact hline.symm.trans (Option.some.inj hx)
    exact (hl.lines _ hmem).imp_right (·.trans hargs.le)
  · rw [hline]
    refine List.forall_mem_cons.mpr ⟨fun x hx => ?_, fun c hc x hx => ?_⟩
    · rcases mem_lines.mp hx with hx | ⟨c, hc, hx⟩
      · exact (Option.some.inj (hsite.symm.trans hx)).le
      · exact (hl.tidy e (preorder_true e ▸ List.mem_cons_self)).leads (by rw [he]; rfl) c hc x hx
    · exact (hl.lines _ hmem).2.trans ((hargs.strewn.2 c hc).lines x hx).1

theorem lies_method (h : Row lo hi children) (hline : lo ≤ line ∧ line ≤ hi) :
    (mk (.method name line) span children).Lies lo hi :=
  lies_of h.le (fun _ hx => Option.some.inj hx ▸ hline) ⟨nofun, h.pairwise_of_lifts⟩ h.strewn.2

/-- A path that marks a place before what starts there has been read. -/
def marker (start : Place) : Node := mk (.path none "") ⟨start, start.offset⟩ []

theorem lies_marker : (marker start).Lies lo hi ↔ lo ≤ start.line ∧ start.line ≤ hi := by
  refine ⟨fun h => h.lines _ (mem_lines.mpr (.inl rfl)), fun h => ?_⟩
  exact lies_of (h.1.trans h.2) (fun _ hx => Option.some.inj hx ▸ h) ⟨nofun, .nil⟩ nofun

theorem lies_path (h : Row lo hi (marker start :: children)) :
    (mk (.path whole last) ⟨start, stop⟩ children).Lies lo hi := by
  obtain ⟨m, hm, hc⟩ := id h
  obtain ⟨hlo, hhi⟩ := lies_marker.mp hm
  refine lies_of h.le (fun x hx => ?_) ⟨fun _ c hcn x hx => ?_, hc.pairwise_of_lifts⟩
    fun c hcn => (hc.strewn.2 c hcn).mono hm.le (Nat.le_refl _)
  · obtain rfl : start.line = x := Option.some.inj hx
    exact ⟨hlo, hhi.trans hc.le⟩
  · exact hhi.trans ((hc.strewn.2 c hcn).lines x hx).1

/-! ### Attributes before a node -/

/-- Whether the attributes before a node go to its first operand. -/
def splits (n : Node) : Bool := n.form == .joined || n.form == .comparison

theorem lifts_of_splits (h : n.splits = true) (c : Node) : n.lifts c = false := by
  obtain ⟨form, span, children⟩ := n
  cases form <;> first | rfl | cases h

theorem attach_eq (attributes : List Node) (start : Place) (n : Node) : n.attach attributes start =
    mk n.form ⟨start, n.span.stop⟩ (if n.splits then attachFirst attributes start n.children
      else if n.form = .verbatim then n.children else attributes ++ n.children) := by
  obtain ⟨form, span, children⟩ := n
  cases form <;> rfl

/-- A node that starts further up lies from there on, if its children do. -/
theorem Lies.from (h : n.Lies m hi) (hm : start.line ≤ m)
    (hc : ∀ c ∈ children, c.Lies start.line hi)
    (hp : children.Pairwise fun c d => n.lifts c = false → c.Before d) :
    (Node.mk n.form ⟨start, stop⟩ children).Lies start.line hi := by
  have hle := hm.trans h.le
  refine lies_of hle (fun x hx => ?_) ⟨fun _ c hcn x hx => ((hc c hcn).lines x hx).1, hp⟩ hc
  obtain ⟨form, span, children'⟩ := n
  cases form with
  | path => exact Option.some.inj hx ▸ ⟨Nat.le_refl _, hle⟩
  | call callee =>
    cases callee with
    | some callee => exact Option.some.inj hx ▸ ⟨Nat.le_refl _, hle⟩
    | none => cases hx
  | method => exact (h.lines x (mem_lines.mpr (.inl hx))).imp_left hm.trans
  | _ => cases hx

/-- Only the lines below a node say how far it reaches. -/
theorem Lies.until (h : n.Lies lo hi) (hle : lo ≤ m) (hm : ∀ x ∈ n.lines, x ≤ m) :
    n.Lies lo m where
  le := hle
  lines x hx := ⟨(h.lines x hx).1, hm x hx⟩
  tidy := h.tidy

/-- Attributes with a mark of the place where they start. -/
def led (start : Place) (attributes : List Node) : List Node :=
  if attributes.isEmpty then [] else marker start :: attributes

@[simp]
theorem attributes_sublist_led (start : Place) (attributes : List Node) :
    attributes.Sublist (led start attributes) := by
  cases attributes with
  | nil => exact .slnil
  | cons a as => exact List.sublist_cons_self _ _

mutual
/-- A node still lies where it did when attributes that stand before it are put there. -/
theorem Lies.attach {hi : Nat} (ha : Row start.line m attributes) : (n : Node) → n.Lies m hi →
    (n.attach attributes start).Lies start.line hi
  | mk form span children, h => by
    have hp := (h.tidy _ (preorder_true _ ▸ List.mem_cons_self)).children
    have hc (c : Node) (hm : c ∈ children) : c.Lies start.line hi :=
      (h.child hm).mono ha.le (Nat.le_refl _)
    rw [attach_eq]
    split
    · rename_i hs
      obtain ⟨hlies, hbefore⟩ := lies_attachFirst ha children fun c hm => h.child hm
      have hlifts (c : Node) : (mk form span children).lifts c = false := lifts_of_splits hs c
      have hpairs : children.Pairwise Before := hp.imp fun hcd => hcd (hlifts _)
      exact h.from ha.le hlies (pairwise_of_before (hbefore hpairs))
    · split
      · exact h.from ha.le hc hp
      · refine h.from ha.le (List.forall_mem_append.mpr ⟨fun a ham => ?_, hc⟩) ?_
        · exact (ha.strewn.2 a ham).mono (Nat.le_refl _) h.le
        · refine List.pairwise_append.mpr ⟨ha.pairwise_of_lifts, hp, ?_⟩
          intro a ham c hm _ x hx y hy
          exact ((ha.strewn.2 a ham).lines x hx).2.trans ((h.child hm).lines y hy).1

/-- The first of some nodes may have attributes put before it. -/
theorem lies_attachFirst {hi : Nat} (ha : Row start.line m attributes) : (ns : List Node) →
    (∀ c ∈ ns, c.Lies m hi) →
      (∀ c ∈ attachFirst attributes start ns, c.Lies start.line hi) ∧
      (ns.Pairwise Before → (attachFirst attributes start ns).Pairwise Before)
  | [], _ => ⟨nofun, fun _ => .nil⟩
  | n :: ns, h => by
    obtain ⟨hn, hns⟩ := List.forall_mem_cons.mp h
    refine ⟨List.forall_mem_cons.mpr
      ⟨Lies.attach ha n hn, fun c hc => (hns c hc).mono ha.le (Nat.le_refl _)⟩, fun hp => ?_⟩
    obtain ⟨hfirst, hp⟩ := List.pairwise_cons.mp hp
    refine List.pairwise_cons.mpr ⟨fun d hd x hx y hy => ?_, hp⟩
    have hy' := hn.until ((hns d hd).lines y hy).1 fun x hx => hfirst d hd x hx y hy
    exact ((Lies.attach ha n hy').lines x hx).2
end

theorem row_led (hlo : lo ≤ start.line) (h : Row start.line hi attributes) :
    Row lo hi (led start attributes) := by
  cases attributes with
  | nil => exact hlo.trans h
  | cons a as => exact ⟨start.line, lies_marker.mpr ⟨hlo, Nat.le_refl _⟩, h⟩

theorem lies_withAttributes (h : Row lo hi (led start attributes ++ [n])) :
    (withAttributes attributes start n).Lies lo hi := by
  unfold withAttributes
  cases attributes with
  | nil => exact row_singleton.mp h
  | cons a as =>
    obtain ⟨m, hm, h⟩ := h
    obtain ⟨j, hattributes, hn⟩ := Row.split h
    obtain ⟨hlo, hle⟩ := lies_marker.mp hm
    have hrow : Row start.line j (a :: as) := hattributes.mono hle (Nat.le_refl _)
    exact (Lies.attach hrow n (row_singleton.mp hn)).mono hlo (Nat.le_refl _)

end Node

end Retrace.Source
