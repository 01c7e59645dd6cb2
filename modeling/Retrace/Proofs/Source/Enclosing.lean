import Retrace.Proofs.Source.Foreign
import Retrace.Proofs.Source.Sites
import Retrace.Proofs.Table

/-! Which routine an instrumentation call belongs to: the innermost one that is declared around it.
-/
namespace Retrace.Source

/-- What is known of a routine in it. -/
def Signature.enclosing (text : List Char) (s : Signature) : Enclosing :=
  ⟨s.name, s.paramNames text⟩

namespace Node

/-- The routine that is declared at one address encloses what is at another one. -/
structure Encloses (n : Node) (b : Address) (sig : Signature) (a : Address) : Prop where
  declared : (n.at? b).bind (·.form.signature?) = some sig
  above : b <+: a
  proper : b ≠ a

/-- The routine is the innermost one around an address, or there is none around it. -/
inductive Innermost (n : Node) (a : Address) : Option Signature → Prop
  | around {b sig} (h : n.Encloses b sig a)
      (hlast : ∀ b' sig', n.Encloses b' sig' a → b' <+: b) : Innermost n a (some sig)
  | outside (h : ∀ b sig, ¬n.Encloses b sig a) : Innermost n a none

variable {n m c : Node} {a b b' : Address} {i : Nat} {text : List Char} {sig sig' : Signature}
  {innermost innermost' : Option Signature} {source : String} {s : Snippet}

theorem not_encloses_nil : ¬n.Encloses b sig [] :=
  fun h => h.proper (List.prefix_nil.mp h.above)

theorem encloses_cons_nil : n.Encloses [] sig (i :: a) ↔ n.form.signature? = some sig :=
  ⟨fun h => h.declared, fun h => ⟨h, List.nil_prefix, List.cons_ne_nil i a |>.symm⟩⟩

theorem encloses_cons_cons (hc : n.children[i]? = some c) :
    n.Encloses (i :: b) sig (i :: a) ↔ c.Encloses b sig a := by
  have hat : n.at? (i :: b) = c.at? b := by rw [at?, hc]; rfl
  constructor
  · rintro ⟨hdeclared, habove, hproper⟩
    rw [hat] at hdeclared
    exact ⟨hdeclared, (List.cons_prefix_cons.mp habove).2, fun h => hproper (h ▸ rfl)⟩
  · rintro ⟨hdeclared, habove, hproper⟩
    refine ⟨hat ▸ hdeclared, List.cons_prefix_cons.mpr ⟨rfl, habove⟩, fun h => hproper ?_⟩
    exact (List.cons.inj h).2

/-- A routine around an address in a tree is the tree itself or is in the subtree there. -/
theorem Encloses.cases_cons (h : n.Encloses b sig (i :: a)) (hc : n.children[i]? = some c) :
    b = [] ∧ n.form.signature? = some sig ∨ ∃ b', b = i :: b' ∧ c.Encloses b' sig a := by
  cases b with
  | nil => exact .inl ⟨rfl, encloses_cons_nil.mp h⟩
  | cons j b =>
    obtain ⟨rfl, -⟩ := List.cons_prefix_cons.mp h.above
    exact .inr ⟨b, rfl, (encloses_cons_cons hc).mp h⟩

theorem inside_eq (text : List Char) (enclosing : Option Enclosing) (n : Node) :
    n.inside text enclosing = (n.form.signature?.map (·.enclosing text)).or enclosing := by
  obtain ⟨form, span, children⟩ := n
  cases form <;> rfl

/-- There are not two routines that are innermost. -/
theorem Innermost.unique (h : n.Innermost a innermost) (h' : n.Innermost a innermost') :
    innermost = innermost' := by
  cases h with
  | outside h =>
    cases h' with
    | outside => rfl
    | around h' => exact absurd h' (h _ _)
  | around h hlast =>
    cases h' with
    | outside h' => exact absurd h (h' _ _)
    | around h' hlast' =>
      obtain rfl := (hlast _ _ h').eq_of_length_le (hlast' _ _ h).length_le
      exact h'.declared.symm.trans h.declared |>.symm

/-- A step down a tree goes into the routine that the tree is, unless there is one further down. -/
theorem Innermost.cons (hc : n.children[i]? = some c) (h : c.Innermost a innermost) :
    n.Innermost (i :: a) (innermost.or n.form.signature?) := by
  cases h with
  | around h hlast =>
    refine .around ((encloses_cons_cons hc).mpr h) fun b' sig' h' => ?_
    rcases h'.cases_cons hc with ⟨rfl, -⟩ | ⟨b, rfl, hb⟩
    · exact List.nil_prefix
    · exact List.cons_prefix_cons.mpr ⟨rfl, hlast b sig' hb⟩
  | outside h =>
    cases hn : n.form.signature? with
    | some sig =>
      refine .around (encloses_cons_nil.mpr hn) fun b' sig' h' => ?_
      rcases h'.cases_cons hc with ⟨rfl, -⟩ | ⟨b, rfl, hb⟩
      · exact List.nil_prefix
      · exact absurd hb (h b sig')
    | none =>
      refine .outside fun b' sig' h' => ?_
      rcases h'.cases_cons hc with ⟨rfl, hself⟩ | ⟨b, rfl, hb⟩
      · rw [hn] at hself
        cases hself
      · exact h b sig' hb

/-- The routine that a walk down a tree has in mind at an address is the innermost one. -/
theorem exists_innermost (text : List Char) (enclosing : Option Enclosing)
    (ha : n.at? a = some m) : ∃ innermost, n.Innermost a innermost ∧
      n.enclosingAt text enclosing a = (innermost.map (·.enclosing text)).or enclosing := by
  induction a generalizing n enclosing with
  | nil => exact ⟨none, .outside fun b sig => not_encloses_nil, rfl⟩
  | cons i a ih =>
    obtain ⟨c, hc, ha⟩ := Option.bind_eq_some_iff.mp ha
    obtain ⟨innermost, hinnermost, heq⟩ := ih (n.inside text enclosing) ha
    refine ⟨_, hinnermost.cons hc, ?_⟩
    rw [enclosingAt, hc, Option.map_some, Option.getD_some, heq, inside_eq]
    cases innermost <;> rfl

end Node

/-! ### Steps -/

/-- The step shows the routine of a call, and its only frame shows it with the parameters. -/
structure Site.ShownBy (site : Site) (step : Step) : Prop where
  function : step.function = (site.enclosing.map Enclosing.routine).getD "global"
  frame : ∃ f, step.stack = [f] ∧ f.function = step.function ∧
    f.parameters.rows =
      ((site.enclosing.map Enclosing.params).getD []).eraseDups.map (fun p => (p, none)) ∧
    f.locals.rows = [] ∧ f.line = some site.line

theorem Site.shownBy_step (k : Nat) (site : Site) : site.ShownBy (site.step k) where
  function := rfl
  frame := ⟨_, rfl, rfl, Table.rows_ofRows_const _ _, rfl, rfl⟩

theorem forall₂_stepsFrom (k : Nat) (ss : List Site) :
    List.Forall₂ Site.ShownBy ss (stepsFrom k ss) := by
  induction ss generalizing k with
  | nil => exact .nil
  | cons site ss ih => exact .cons (site.shownBy_step k) (ih (k + 1))

theorem map_function_stepsFrom (k : Nat) (ss : List Site) :
    (stepsFrom k ss).map Step.function =
      ss.map fun site => (site.enclosing.map Enclosing.routine).getD "global" := by
  induction ss generalizing k with
  | nil => rfl
  | cons site ss ih => exact congrArg _ (ih (k + 1))

/-- Each reported call belongs to the innermost routine that is declared around it, or to none, and
so does the step that it announces. The declarations in a foreign block are no routines. -/
theorem calls_belong_innermost (hs : Snippet.read source = .ok s) :
    (∃ calls : List Address, (∀ a, a ∈ calls ↔ s.root.CallAt a ∧ ¬s.root.Covered a) ∧
      List.Forall₂ (fun a site => s.root.Reports s.text none a site ∧
        (∃ innermost, s.root.Innermost a innermost) ∧
        ∀ innermost, s.root.Innermost a innermost →
          site.enclosing = innermost.map (·.enclosing s.text)) calls s.sites) ∧
    (∀ steps, staticTrace source = .ok steps → List.Forall₂ Site.ShownBy s.sites steps) ∧
    ∀ g start, Parser.Answers (foreignBlock g start) fun n =>
      n.Plain ∧ ∀ c ∈ n.children, c.Plain := by
  refine ⟨⟨s.root.calls, fun a => Node.mem_calls, ?_⟩, ?_, fun g start => answers_foreignBlock⟩
  · have hreports := Node.forall₂_reports s.text none s.root
    rw [s.sites_root] at hreports
    refine hreports.imp fun a site hr => ?_
    obtain ⟨m, hm, hsite⟩ := hr
    obtain ⟨innermost, hinnermost, heq⟩ := Node.exists_innermost s.text none hm
    refine ⟨⟨m, hm, hsite⟩, ⟨innermost, hinnermost⟩, fun innermost' h' => ?_⟩
    have henclosing : site.enclosing = s.root.enclosingAt s.text none a := congrArg _ hsite
    rw [henclosing, heq, hinnermost.unique h', Option.or_none]
  · intro steps hsteps
    rw [staticTrace_of_read hs] at hsteps
    split at hsteps
    · cases hsteps
    · rw [← Except.ok.inj hsteps]
      exact forall₂_stepsFrom 1 s.sites

/-- Calls in a routine inside a method, after it, in a routine that is declared in the argument of a
macro, in a closure there, and in a foreign declaration. -/
def scopedSource : String :=
  "impl W \x7b fn walk(&self, n: u8) \x7b
    fn inner(k: u8) \x7b capture_step!(); \x7d capture_step!();
    p!(\x7b fn deep() \x7b capture_step!(); \x7d 1 \x7d, || capture_step!()); \x7d \x7d
  extern \x7b fn far(x: [u8; capture_step!()]); \x7d"

def scopedRoutines : List (Option Enclosing) :=
  [some ⟨"inner", ["k"]⟩, some ⟨"walk", ["self", "n"]⟩, some ⟨"deep", []⟩,
    some ⟨"walk", ["self", "n"]⟩, none]

theorem calls_belong_innermost_sample : ∃ s, Snippet.read scopedSource = .ok s ∧
    s.sites.map Site.enclosing = scopedRoutines ∧
    (∃ calls : List Address, List.Forall₂ (fun a enclosing => ∃ innermost,
      s.root.Innermost a innermost ∧ enclosing = innermost.map (·.enclosing s.text)) calls
      scopedRoutines) ∧
    ∃ steps, staticTrace scopedSource = .ok steps ∧
      List.Forall₂ Site.ShownBy s.sites steps ∧
      steps.map Step.function = ["inner", "walk", "deep", "walk", "global"] := by
  have hfacts : (Snippet.read scopedSource).toOption.any (fun s =>
      s.sites.map Site.enclosing == scopedRoutines) = true := by decide +kernel
  cases hs : Snippet.read scopedSource with
  | error f => rw [hs] at hfacts; cases hfacts
  | ok s =>
    rw [hs] at hfacts
    have hrows : s.sites.map Site.enclosing = scopedRoutines := beq_iff_eq.mp hfacts
    have hsome : s.sites.isEmpty = false := by
      rw [← List.isEmpty_map, hrows]
      rfl
    have htrace : staticTrace scopedSource = .ok (stepsFrom 1 s.sites) := by
      rw [staticTrace_of_read hs, hsome, if_neg Bool.false_ne_true]
    obtain ⟨⟨calls, -, hcalls⟩, hsteps, -⟩ := calls_belong_innermost hs
    refine ⟨s, rfl, hrows, ⟨calls, ?_⟩, stepsFrom 1 s.sites, htrace, hsteps _ htrace, ?_⟩
    · rw [← hrows]
      refine List.forall₂_map_right_iff.mpr (hcalls.imp ?_)
      rintro a site ⟨-, ⟨innermost, hinnermost⟩, hall⟩
      exact ⟨innermost, hinnermost, hall innermost hinnermost⟩
    · have hfunctions := congrArg
        (List.map fun enclosing => (enclosing.map Enclosing.routine).getD "global") hrows
      rw [List.map_map] at hfunctions
      exact (map_function_stepsFrom 1 s.sites).trans hfunctions

end Retrace.Source
