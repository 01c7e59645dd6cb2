import Retrace.Source.File

/-! What a reader answers, whatever it reads; and that a foreign block declares no routines. -/
namespace Retrace.Source

open Source.Parser

/-- What the form declares, if it is a routine. -/
def Form.signature? : Form → Option Signature
  | .routine s _ => some s
  | _ => none

/-- The node is no routine itself. -/
def Node.Plain (n : Node) : Prop := n.form.signature? = none

/-! ### Answers of readers -/

/-- Whatever a reader answers satisfies `P`. -/
def Parser.Answers {α : Type} (p : Parser α) (P : α → Prop) : Prop :=
  ∀ s a s', p.run s = .ok (a, s') → P a

variable {α β : Type} {P : β → Prop} {Q : α → Prop} {g : Grammar} {p : Parser α}
  {f : α → Parser β} {attributes : List Node} {start : Place}

namespace Parser.Answers

theorem bind (hp : Answers p Q) (h : ∀ a, Q a → Answers (f a) P) : Answers (p >>= f) P := by
  intro s b s' hs
  rw [StateT.run_bind] at hs
  cases ha : p.run s with
  | error e => rw [ha] at hs; cases hs
  | ok as =>
    rw [ha] at hs
    exact h as.1 (hp s as.1 as.2 ha) as.2 b s' hs

/-- What a reader answers at last does not hang on what was answered before. -/
theorem after (h : ∀ a, Answers (f a) P) : Answers (p >>= f) P :=
  bind (Q := fun _ => True) (fun _ _ _ _ => trivial) fun a _ => h a

theorem pure {a : α} (h : Q a) : Answers (Pure.pure a) Q := by
  intro s b s' hs
  obtain ⟨rfl, -⟩ := Prod.mk.inj (Except.ok.inj hs)
  exact h

theorem throw (e : Fault) : Answers (MonadExcept.throw e : Parser α) Q := by
  intro s a s' hs
  cases hs

theorem fail (e : Cause) : Answers (Parser.fail e : Parser α) Q := after fun _ => throw _

theorem ite {q : Parser α} {c : Prop} [Decidable c] (hp : Answers p Q) (hq : Answers q Q) :
    Answers (if c then p else q) Q := by
  split
  · exact hp
  · exact hq

theorem within (h : Answers p Q) (d : Delimiter) : Answers (Parser.within d p) Q := by
  refine after fun s => ?_
  split
  · split
    · refine after fun _ => bind h fun a ha => after fun _ => after fun _ => pure ha
    · exact fail _
  · exact fail _

theorem manyFrom (h : Answers p Q) (more : List Token → Bool) (fuel : Nat) :
    Answers (Parser.manyFrom more p fuel) (fun as => ∀ a ∈ as, Q a) := by
  induction fuel with
  | zero => exact pure nofun
  | succ fuel ih =>
    refine after fun ts => ?_
    split
    · exact bind h fun a ha => bind ih fun as has => pure (List.forall_mem_cons.mpr ⟨ha, has⟩)
    · exact pure nofun

theorem many (h : Answers p Q) (more : List Token → Bool) :
    Answers (Parser.many more p) (fun as => ∀ a ∈ as, Q a) :=
  after fun fuel => manyFrom h more fuel

theorem node {form : Form} {children : List Node} (h : form.signature? = none) :
    Answers (Parser.node form start children) Node.Plain :=
  after fun _ => pure h

end Parser.Answers

/-! ### Foreign declarations -/

open Source.Parser (Answers)

theorem Node.form_attach (attributes : List Node) (start : Place) (n : Node) :
    (n.attach attributes start).form = n.form := by
  obtain ⟨form, span, children⟩ := n
  cases form <;> rfl

theorem plain_withAttributes {n : Node} (h : n.Plain) :
    (withAttributes attributes start n).Plain := by
  unfold withAttributes
  split
  · exact h
  · rwa [Node.Plain, Node.form_attach]

theorem answers_innerAttributes : Answers (innerAttributes g) (fun ns => ∀ n ∈ ns, n.Plain) :=
  .many (.after fun _ => .after fun _ => .after fun _ => .after fun _ => .node rfl) _

theorem answers_invocationBody (path : Path) :
    Answers (invocationBody g path start) Node.Plain := by
  refine .after fun x => ?_
  obtain ⟨d, body, close⟩ := x
  dsimp only
  split
  · exact .node rfl
  · exact .node rfl

theorem answers_itemInvocation (named : Bool) : Answers (itemInvocation g named) Node.Plain := by
  have hend {start : Place} {path : Path} : Answers (do
      let n ← invocationBody g path start
      if !(← get).afterBrace then take ";"
      return n) Node.Plain :=
    .bind (answers_invocationBody path) fun n hn => .after fun _ =>
      .ite (.after fun _ => .pure hn) (.pure hn)
  unfold itemInvocation
  refine .after fun _ => .after fun _ => .after fun _ => .ite ?_ hend
  exact .after fun _ => .ite (.after fun _ => hend) hend

theorem answers_foreignItem : Answers (foreignItem g) Node.Plain := by
  have hplain {form : Form} {attributes children : List Node} {start start' : Place}
      (h : form.signature? = none) : Answers (do
        return withAttributes attributes start' (← Parser.node form start children)) Node.Plain :=
    .bind (.node h) fun _ hn => .pure (plain_withAttributes hn)
  unfold foreignItem
  refine .after fun start => .after fun attributes => .after fun _ =>
    .ite ?_ (.ite ?_ (.ite ?_ ?_))
  -- A routine: its signature is read and not kept.
  · refine .after fun _ => .after fun _ => .after fun _ => .ite ?_ ?_
    · exact .after fun _ => hplain rfl
    · exact .after fun _ => .ite (hplain rfl) (hplain rfl)
  -- A static.
  · refine .after fun _ => .after fun _ => .after fun _ => .after fun _ => .after fun _ =>
      .after fun _ => .after fun _ => .after fun _ => .ite ?_ ?_
    · exact .after fun _ => .after fun _ => .ite (hplain rfl) (hplain rfl)
    · exact .after fun _ => .ite (hplain rfl) (hplain rfl)
  -- A type.
  · exact .after fun _ => .ite (hplain rfl) (hplain rfl)
  -- An invocation, or nothing that may stand there.
  · have hattached (n : Node) (hn : n.Plain) :
        Answers (pure (withAttributes attributes start n)) Node.Plain :=
      .pure (plain_withAttributes hn)
    exact .ite (.bind (answers_itemInvocation false) hattached) (.bind (.throw _) hattached)

/-- A foreign block declares no routines, whatever reads the parts of it. -/
theorem answers_foreignBlock : Answers (foreignBlock g start) fun n =>
    n.Plain ∧ ∀ c ∈ n.children, c.Plain := by
  have hitems : Answers (itemsWithin g (foreignItem g)) fun x =>
      (∀ n ∈ x.1, n.Plain) ∧ ∀ n ∈ x.2, n.Plain :=
    .within (.bind answers_innerAttributes fun _ hattributes =>
      .bind (.many answers_foreignItem _) fun _ hitems => .pure ⟨hattributes, hitems⟩) _
  refine .after fun _ => .after fun _ => .bind hitems fun x hx => .after fun _ => .pure ⟨rfl, ?_⟩
  exact List.forall_mem_append.mpr hx

end Retrace.Source
