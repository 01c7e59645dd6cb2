import Retrace.Proofs.Source.Order.Reading
import Retrace.Proofs.Source.Foreign

/-! The rules by which readers lay what they read in a row: one for each way to put readers
together. -/
namespace Retrace.Source

open Token (Between)
open Source.Parser Node

namespace Parser

section

variable {α β : Type} [Holds α] [Holds β] {k : Arrangement} {ns ms : List Node} {p q : Parser α}
  {f : α → Parser β} {ts us : List Token} {stop : Nat} {n : Node}

/-- What a reader answers stands after the nodes before it, those included, as they do. -/
structure Lays (k : Arrangement) (ns : List Node) (p : Parser α) : Prop where
  lays : ∀ {l m e s a s'}, Arranged k l m ns → Between m e s.rest → p.run s = .ok (a, s') →
    ∃ h, Between h e s'.rest ∧ Arranged k l h (nodes a)

/-- The nodes that a reader answers stand in a row. -/
class Laid (p : Parser α) : Prop where
  laid : Lays .row [] p

/-- A reader lays what it reads when it knows which tokens come next. -/
structure LaysAt (ts : List Token) (k : Arrangement) (ns : List Node) (p : Parser α) : Prop where
  lays : ∀ {l m e s a s'}, s.rest = ts → Arranged k l m ns → Between m e ts →
    p.run s = .ok (a, s') → ∃ h, Between h e s'.rest ∧ Arranged k l h (nodes a)

namespace LaysAt

theorem of_lays (h : Lays k ns p) : LaysAt ts k ns p where
  lays hs ha hb hr := h.lays ha (hs ▸ hb) hr

theorem goOn_bind {f : Unit → Parser β} (hs : us <:+ ts) (h : Lays k ns (f ())) :
    LaysAt ts k ns (goOn us stop >>= f) where
  lays _ ha hb hr := by
    obtain ⟨_, s, hgo, hr⟩ := run_bind_eq_ok hr
    obtain ⟨-, rfl⟩ := Prod.mk.inj (Except.ok.inj hgo)
    obtain ⟨j, hj, hb⟩ := hb.suffix hs
    exact h.lays (ha.mono (Nat.le_refl _) hj) hb hr

end LaysAt

namespace Lays

/-! ### One reader after the other -/

theorem mono (h : Lays k ms p) (hs : ms.Sublist ns) : Lays k ns p where
  lays ha hb hr := h.lays (ha.sublist hs) hb hr

/-- The nodes before a reader may be taken for others that stand there. -/
theorem recast (h : Lays k ms p) (hs : ∀ l m, Arranged k l m ns → Arranged k l m ms) :
    Lays k ns p where
  lays ha hb hr := h.lays (hs _ _ ha) hb hr

theorem of_row (h : Lays .row [] p) : Lays k [] p where
  lays ha hb hr := by
    obtain ⟨j, hb, hj⟩ := h.lays (l := _) ha.le hb hr
    exact ⟨j, hb, .of_row hj⟩

theorem fails [Fails p] : Lays k ns p where
  lays _ _ hr := by
    obtain ⟨e, h⟩ := Fails.fails (p := p) _
    rw [h] at hr
    cases hr

theorem pure {a : α} (h : (nodes a).Sublist ns) : Lays k ns (Pure.pure a : Parser α) where
  lays ha hb hr := by
    obtain ⟨rfl, rfl⟩ := Prod.mk.inj (Except.ok.inj hr)
    exact ⟨_, hb, ha.sublist h⟩

/-- Nodes that stand anywhere may be answered in any order. -/
theorem strew {a : α} (h : ∀ c ∈ nodes a, c ∈ ns) :
    Lays .strewn ns (Pure.pure a : Parser α) where
  lays ha hb hr := by
    obtain ⟨rfl, rfl⟩ := Prod.mk.inj (Except.ok.inj hr)
    exact ⟨_, hb, ha.1, fun n hn => ha.2 n (h n hn)⟩

/-- The reader that goes on takes all nodes before it with it. -/
theorem through (hp : Lays k ns p) (h : ∀ a, Lays k (nodes a) (f a)) : Lays k ns (p >>= f) where
  lays ha hb hr := by
    obtain ⟨a, s, hp', hr⟩ := run_bind_eq_ok hr
    obtain ⟨j, hb, ha⟩ := hp.lays ha hb hp'
    exact (h a).lays ha hb hr

/-- The reader that goes on takes the last nodes before it with it. -/
theorem beyond (hp : Lays .row ms p) (h : ∀ a, Lays .row (ns ++ nodes a) (f a)) :
    Lays .row (ns ++ ms) (p >>= f) where
  lays ha hb hr := by
    obtain ⟨a, s, hp', hr⟩ := run_bind_eq_ok hr
    obtain ⟨i, hns, hms⟩ := Row.split ha
    obtain ⟨j, hb, hj⟩ := hp.lays hms hb hp'
    exact (h a).lays (Row.append hns hj) hb hr

/-- The nodes that are read next stand after those before them. -/
theorem bind_knowing {Q : α → Prop} (hp : Lays .row [] p) (hq : Answers p Q)
    (h : ∀ a, Q a → Lays k (ns ++ nodes a) (f a)) : Lays k ns (p >>= f) where
  lays ha hb hr := by
    obtain ⟨a, s, hp', hr⟩ := run_bind_eq_ok hr
    obtain ⟨j, hb, hj⟩ := hp.lays (Nat.le_refl _) hb hp'
    exact (h a (hq _ _ _ hp')).lays (ha.append (.of_row hj)) hb hr

@[inherit_doc bind_knowing]
theorem bind_of (hp : Lays .row [] p) (h : ∀ a, Lays k (ns ++ nodes a) (f a)) :
    Lays k ns (p >>= f) :=
  bind_knowing (Q := fun _ => True) hp (fun _ _ _ _ => trivial) fun a _ => h a

@[inherit_doc bind_knowing]
theorem bind [hp : Laid p] (h : ∀ a, Lays k (ns ++ nodes a) (f a)) : Lays k ns (p >>= f) :=
  bind_of hp.laid h

/-- Nodes that are read in any order stand as a whole after those before them. -/
theorem bind_strewn (hp : Lays .strewn [] p)
    (h : ∀ a, Lays .row (ns ++ [packed (nodes a)]) (f a)) : Lays .row ns (p >>= f) where
  lays ha hb hr := by
    obtain ⟨a, s, hp', hr⟩ := run_bind_eq_ok hr
    obtain ⟨j, hb, hj⟩ := hp.lays ⟨Nat.le_refl _, nofun⟩ hb hp'
    exact (h a).lays (Row.append ha (row_singleton.mpr (lies_declares rfl hj))) hb hr

/-- What is read next goes on, and the nodes in it do not count. -/
theorem after {γ : Type} {q : Parser γ} {f : γ → Parser β} [Moves q] (h : ∀ a, Lays k ns (f a)) :
    Lays k ns (q >>= f) where
  lays ha hb hr := by
    obtain ⟨a, s, hq, hr⟩ := run_bind_eq_ok hr
    obtain ⟨j, hj, hb⟩ := Moves.moves hb hq
    exact (h a).lays (ha.mono (Nat.le_refl _) hj) hb hr

theorem given {γ : Type} {a : γ} {f : γ → Parser β} (h : Lays k ns (f a)) :
    Lays k ns (Pure.pure a >>= f) where
  lays ha hb hr := by
    rw [pure_bind] at hr
    exact h.lays ha hb hr

theorem chosen {γ : Type} {a : γ} {f : γ → Parser β} {F : γ → List Node}
    (h : ∀ a, Lays k (F a) (f a)) (hs : (F a).Sublist ns) : Lays k ns (Pure.pure a >>= f) :=
  .given (.mono (h a) hs)

/-! ### One reader or another -/

theorem ite {c : Prop} [Decidable c] (hp : Lays k ns p) (hq : Lays k ns q) :
    Lays k ns (if c then p else q) := by
  split
  · exact hp
  · exact hq

/-- One of two readers, and then a third one. -/
theorem branch {c : Prop} [Decidable c] [Laid p] [Laid q]
    (h : ∀ a, Lays k (ns ++ nodes a) (f a)) :
    Lays k ns (if c then p >>= f else q >>= f) :=
  ite (bind h) (bind h)

/-- One of two readers whose nodes do not count, and then a third one. -/
theorem either {γ : Type} {c : Prop} [Decidable c] {i j : Parser γ} {f : γ → Parser β} [Moves i]
    [Moves j] (h : ∀ a, Lays k ns (f a)) : Lays k ns (if c then i >>= f else j >>= f) :=
  ite (after h) (after h)

/-- A reader that may be left out, and then another one. -/
theorem when {γ : Type} {c : Prop} [Decidable c] {j : Parser γ} [Moves j] (h : Lays k ns p) :
    Lays k ns (if c then j >>= fun _ => p else p) :=
  ite (after fun _ => h) h

/-! ### Nodes -/

variable {form : Form} {start place : Place} {children attributes args : List Node}
  {whole : Option String} {name last : String} {e : Node}

theorem node_of (h : ∀ {l m stop}, Arranged k l m ns →
      (Node.mk form ⟨start, stop⟩ children).Lies l m) :
    Lays k ns (Parser.node form start children) where
  lays ha hb hr := by
    obtain ⟨span, s, hspan, hr⟩ := run_bind_eq_ok hr
    obtain ⟨rfl, rfl⟩ := Prod.mk.inj (Except.ok.inj hr)
    obtain ⟨rfl, rfl⟩ := Prod.mk.inj (Except.ok.inj hspan)
    exact ⟨_, hb, Arranged.singleton.mpr (h ha)⟩

theorem node (hf : form.plain = true) (h : children.Sublist ns) :
    Lays .row ns (Parser.node form start children) :=
  node_of fun ha => lies_row hf (Row.sublist ha h)

theorem path (h : (marker start :: children).Sublist ns) :
    Lays .row ns (Parser.node (.path whole last) start children) :=
  node_of fun ha => lies_path (Row.sublist ha h)

theorem method (h : (e :: marker place :: args).Sublist ns) :
    Lays .row ns (Parser.node (.method name place.line) start (e :: args)) :=
  node_of fun ha => by
    have hrow := Row.sublist ha h
    refine lies_method (hrow.sublist (.cons_cons e (List.sublist_cons_self _ _))) ?_
    exact lies_marker.mp (hrow.strewn.2 _ (by simp))

/-- The call of a node starts where the node does. -/
theorem call (e : Node) (h : (e :: args).Sublist ns) :
    Lays .row ns (Parser.node (.call (match e.form with
      | .path _ last => some last
      | _ => none)) e.span.start (e :: args)) :=
  node_of fun ha => by
    have hrow := Row.sublist ha h
    split
    · exact lies_call ‹_› hrow rfl
    · exact lies_row rfl hrow

theorem declares (hf : form.declares = true)
    (hs : ∀ c ∈ children, c ∈ ns ∨ ∃ n ∈ ns, c ∈ n.children) :
    Lays .row ns (Parser.node form start children) :=
  node_of fun ha => by
    have hstrewn := Row.strewn ha
    refine lies_declares hf ⟨hstrewn.1, fun c hc => ?_⟩
    rcases hs c hc with hc | ⟨n, hn, hc⟩
    · exact hstrewn.2 c hc
    · exact (hstrewn.2 n hn).child hc

/-- The attributes of a body may come before what stands in the text before it. -/
theorem encloses (rest : List Node) (hf : form.encloses = true)
    (ha : ∀ a ∈ attributes, a.isAttribute = true) (hc : children = attributes ++ rest)
    (hs : ∀ a ∈ attributes, a ∈ ns) (hr : rest.Sublist ns) :
    Lays .row ns (Parser.node form start children) :=
  node_of fun hrow => by
    subst hc
    have hstrewn := Row.strewn hrow
    have hall : ∀ n ∈ attributes ++ rest, n.Lies _ _ := List.forall_mem_append.mpr
      ⟨fun n hn => hstrewn.2 n (hs n hn), fun n hn => hstrewn.2 n (hr.subset hn)⟩
    exact lies_encloses hf ⟨hstrewn.1, hall⟩ ha (Row.sublist hrow hr)

/-! ### Places -/

/-- Attributes stand from the place on that is next before them. -/
theorem row_outerAttributes {g : Grammar} [hp : Laid (outerAttributes g)] {m e : Nat}
    {s s' : State} {attributes : List Node} (hb : Between m e s.rest)
    (hr : (outerAttributes g).run s = .ok (attributes, s')) :
    ∃ j, Between j e s'.rest ∧ Row m j (led s.place attributes) := by
  cases hs : s.rest with
  | nil =>
    rw [outerAttributes, run_many_nil hs rfl] at hr
    obtain ⟨rfl, rfl⟩ := Prod.mk.inj (Except.ok.inj hr)
    exact ⟨m, hb, Nat.le_refl m⟩
  | cons t ts =>
    obtain ⟨hle, hb⟩ := between_place hb (by simp [hs])
    obtain ⟨j, hb, hrow⟩ := hp.laid.lays (Nat.le_refl _) hb hr
    rw [nodes_nodes] at hrow
    exact ⟨j, hb, row_led hle hrow⟩

theorem marked {f : Place → Parser β} [hn : ∀ start, Needs (f start)]
    (h : ∀ start, Lays k (ns ++ [marker start]) (f start)) : Lays k ns (here >>= f) where
  lays ha hb hr := by
    obtain ⟨start, s, hhere, hr⟩ := run_bind_eq_ok hr
    obtain ⟨rfl, rfl⟩ := Prod.mk.inj (Except.ok.inj hhere)
    obtain ⟨hle, hb⟩ := between_place hb (Needs.rest_ne_nil hr)
    have hmarker := lies_marker.mpr ⟨hle, Nat.le_refl _⟩
    exact (h _).lays (ha.append (Arranged.singleton.mpr hmarker)) hb hr

theorem attributed {g : Grammar} [Laid (outerAttributes g)] {f : Place → List Node → Parser β}
    (h : ∀ start attributes, Lays k (ns ++ led start attributes) (f start attributes)) :
    Lays k ns (here >>= fun start => outerAttributes g >>= fun attributes =>
      f start attributes) where
  lays ha hb hr := by
    obtain ⟨start, s', hhere, hr⟩ := run_bind_eq_ok hr
    obtain ⟨rfl, rfl⟩ := Prod.mk.inj (Except.ok.inj hhere)
    obtain ⟨attributes, s', hattributes, hr⟩ := run_bind_eq_ok hr
    obtain ⟨j, hb, hled⟩ := row_outerAttributes hb hattributes
    exact (h _ _).lays (ha.append (.of_row hled)) hb hr

theorem attach {start : Place} {attributes : List Node} {n : Node}
    (h : Lays .row (ns ++ [withAttributes attributes start n]) p) :
    Lays .row (ns ++ led start attributes ++ [n]) p :=
  h.recast fun l m ha => by
    rw [List.append_assoc] at ha
    obtain ⟨i, hns, hn⟩ := Row.split ha
    exact hns.append (row_singleton.mpr (lies_withAttributes hn))

/-! ### Tokens that are known -/

theorem ahead_bind {f : List Token → Parser β} (h : ∀ ts, LaysAt ts k ns (f ts)) :
    Lays k ns (ahead >>= f) where
  lays ha hb hr := by
    obtain ⟨ts, s, hahead, hr⟩ := run_bind_eq_ok hr
    obtain ⟨rfl, rfl⟩ := Prod.mk.inj (Except.ok.inj hahead)
    exact (h _).lays rfl ha hb hr

/-! ### Groups -/

/-- What a group holds is read between its marks. -/
theorem within (h : Lays k [] p) (d : Delimiter) : Lays k [] (Parser.within d p) where
  lays ha hb hr := by
    obtain ⟨s, _, hget, hr⟩ := run_bind_eq_ok hr
    obtain ⟨rfl, rfl⟩ := Prod.mk.inj (Except.ok.inj hget)
    split at hr
    · rename_i inner start close stop rest hs
      split at hr
      · rw [hs] at hb
        obtain ⟨hle, hinner, hb⟩ := hb
        obtain ⟨_, _, hset, hr⟩ := run_bind_eq_ok hr
        obtain ⟨-, rfl⟩ := Prod.mk.inj (Except.ok.inj hset)
        obtain ⟨a, s', hp, hr⟩ := run_bind_eq_ok hr
        have hinside := ha.mono (Nat.le_refl _) hle
        obtain ⟨j, hleft, ha⟩ := h.lays hinside (Token.between_inner hinner) hp
        cases hr
        exact ⟨close.line, hb, ha.mono (Nat.le_refl _) (Token.Between.le _ hleft)⟩
      · cases hr
    · cases hr

end Lays

/-! ### What goes on -/

instance (priority := low) moves_of_laid [h : Laid p] : Moves p where
  moves hb hr := by
    obtain ⟨j, hb, hj⟩ := h.laid.lays (Nat.le_refl _) hb hr
    exact ⟨j, Row.le hj, hb⟩

namespace Laid

theorem lays [h : Laid p] : Lays k ns p := .mono (.of_row h.laid) (List.nil_sublist ns)

instance within (d : Delimiter) [Laid p] : Laid (Parser.within d p) := ⟨.within lays d⟩

instance manyFrom (more : List Token → Bool) [Laid p] (fuel : Nat) :
    Laid (Parser.manyFrom more p fuel) where
  laid := by
    induction fuel with
    | zero => exact .pure .slnil
    | succ fuel ih =>
      have : Laid (Parser.manyFrom more p fuel) := ⟨ih⟩
      exact .after fun ts => .ite (.bind fun a => .bind fun as => .pure (by simp)) (.pure .slnil)

instance many (more : List Token → Bool) [Laid p] : Laid (Parser.many more p) :=
  ⟨.after fun _ => lays⟩

instance all [Laid p] : Laid (Parser.all p) := many _

instance separatedFrom (sep : String) (stop : List Token → Bool) [Laid p] (fuel : Nat) :
    Laid (Parser.separatedFrom sep stop p fuel) where
  laid := by
    induction fuel with
    | zero => exact .pure .slnil
    | succ fuel ih =>
      have : Laid (Parser.separatedFrom sep stop p fuel) := ⟨ih⟩
      refine .after fun _ => .ite (.pure .slnil) (.bind fun a => .after fun _ => .ite ?_ ?_)
      · exact .pure (by simp)
      · exact .after fun _ => .bind fun as => .pure (by simp)

instance separated (sep : String) (stop : List Token → Bool) [Laid p] :
    Laid (Parser.separated sep stop p) :=
  ⟨.after fun _ => lays⟩

instance commas [Laid p] : Laid (Parser.commas p) := separated _ _

instance chainedFrom (sep : String) (stop : List Token → Bool) [Laid p] (fuel : Nat) :
    Laid (Parser.chainedFrom sep stop p fuel) where
  laid := by
    induction fuel with
    | zero => exact .pure .slnil
    | succ fuel ih =>
      have : Laid (Parser.chainedFrom sep stop p fuel) := ⟨ih⟩
      refine .after fun _ => .ite (.pure .slnil) (.bind fun a => .after fun _ => .ite ?_ ?_)
      · exact .bind fun as => .pure (by simp)
      · exact .pure (by simp)

instance chained (sep : String) (stop : List Token → Bool) [Laid p] :
    Laid (Parser.chained sep stop p) :=
  ⟨.after fun _ => lays⟩

instance attempt [h : Laid p] : Laid (Parser.attempt p) where
  laid := ⟨fun ha hb hr => by
    obtain ⟨s, _, hget, hr⟩ := run_bind_eq_ok hr
    obtain ⟨rfl, rfl⟩ := Prod.mk.inj (Except.ok.inj hget)
    split at hr
    · rename_i a s' hp
      cases hr
      rw [nodes_some]
      exact h.laid.lays ha hb hp
    · cases hr
      exact ⟨_, hb, ha⟩⟩

end Laid

/-- The nodes that are read from a whole group stand where its tokens do. -/
theorem row_of_complete [h : Laid p] {m e : Nat} {close : Place} {a : α} (hb : Between m e ts)
    (hc : complete p ts close = .ok a) : Row m e (nodes a) := by
  unfold complete at hc
  split at hc
  · rename_i a' s hp
    obtain ⟨j, hb, hrow⟩ := h.laid.lays (s := .ofTokens ts close) (Nat.le_refl m) hb hp
    split at hc
    · cases hc
      exact Row.mono hrow (Nat.le_refl _) (Token.Between.le _ hb)
    · cases hc
  · cases hc

theorem between_anyGroup {m e : Nat} {s s' : State} {d : Delimiter} {inner : List Token}
    {close : Place} (hb : Between m e s.rest) (hr : anyGroup.run s = .ok ((d, inner, close), s')) :
    ∃ j, m ≤ j ∧ Between j close.line inner ∧ Between close.line e s'.rest := by
  obtain ⟨ts, _, hahead, hr⟩ := run_bind_eq_ok hr
  obtain ⟨rfl, rfl⟩ := Prod.mk.inj (Except.ok.inj hahead)
  split at hr
  · rename_i hs
    rw [hs] at hb
    cases hr
    exact ⟨_, hb.1, Token.between_inner hb.2.1, hb.2.2⟩
  · cases hr

/-! ### What only goes on -/

/-- What goes on lays no nodes at all. -/
theorem laid_of_moves {γ : Type} {q : Parser γ} [Moves q] : @Laid γ ⟨fun _ => []⟩ q := by
  let _ : Holds γ := ⟨fun _ => []⟩
  refine ⟨⟨fun ha hb hr => ?_⟩⟩
  obtain ⟨j, hj, hb⟩ := Moves.moves hb hr
  exact ⟨j, hb, Nat.le_trans ha hj⟩

namespace Moves

variable {γ : Type} {q : Parser γ}

instance within (d : Delimiter) [Moves q] : Moves (Parser.within d q) :=
  letI : Holds γ := ⟨fun _ => []⟩
  have : Laid q := laid_of_moves
  moves_of_laid

instance many (more : List Token → Bool) [Moves q] : Moves (Parser.many more q) :=
  letI : Holds γ := ⟨fun _ => []⟩
  have : Laid q := laid_of_moves
  moves_of_laid

instance chained (sep : String) (stop : List Token → Bool) [Moves q] :
    Moves (Parser.chained sep stop q) :=
  letI : Holds γ := ⟨fun _ => []⟩
  have : Laid q := laid_of_moves
  moves_of_laid

end Moves

end

end Parser

/-- The readers that the parts of a grammar call lay what they read in a row. -/
class Grammar.Ordered (g : Grammar) : Prop where
  expression (structs : Bool) : Laid (g.expression structs)
  early : Laid g.early
  unary (structs : Bool) : Laid (g.unary structs)
  climb (structs : Bool) (base : Precedence) (left : Node) :
    Lays .row [left] (g.climb structs base left)
  type (plus : Bool) : Laid (g.type plus)
  bound (rules : BoundRules) : Laid (g.bound rules)
  pattern : Laid g.pattern
  statements : Laid g.statements
  item : Laid g.item
  namedFields : Laid g.namedFields
  useTree (roots : Bool) : Moves (g.useTree roots)

attribute [instance] Grammar.Ordered.expression Grammar.Ordered.early Grammar.Ordered.unary
  Grammar.Ordered.type Grammar.Ordered.bound Grammar.Ordered.pattern Grammar.Ordered.statements
  Grammar.Ordered.item Grammar.Ordered.namedFields Grammar.Ordered.useTree

end Retrace.Source
