import Retrace.Proofs.Source.Order.Rows
import Retrace.Proofs.Source.Order.Tokens
import Retrace.Source.File

/-! Readers take tokens in the order of the text, so what they answer stands in that order, too. -/
namespace Retrace.Source

open Token (Between)
open Source.Parser Node

/-- The nodes in what a reader answers. -/
class Holds (α : Type) where
  nodes : α → List Node

export Holds (nodes)

/-- There are no nodes in what a reader answers. -/
class Blank (α : Type) : Prop

section

variable {α β : Type} [Holds α] [Holds β]

instance : Blank Bool where
instance : Blank Place where
instance : Blank Segment where
instance : Blank Signature where
instance : Blank Param where
instance : Blank Declared where
instance : Blank Enclosed where
instance : Blank Form where

instance [Blank α] : Holds α := ⟨fun _ => []⟩
instance : Holds Node := ⟨fun n => [n]⟩
instance : Holds (List α) := ⟨fun as => as.flatMap nodes⟩
instance : Holds (Option α) := ⟨fun a => a.toList.flatMap nodes⟩
instance : Holds (α × β) := ⟨fun a => nodes a.1 ++ nodes a.2⟩
instance : Holds Path := ⟨Path.nodes⟩
instance : Holds TypeShape := ⟨TypeShape.nodes⟩
instance : Holds Pattern := ⟨Pattern.nodes⟩

variable {a : α} {b : β} {as : List α} {n : Node} {ns : List Node}

@[simp] theorem nodes_blank {γ : Type} [Blank γ] (c : γ) : nodes c = [] := rfl
@[simp] theorem nodes_node : nodes n = [n] := rfl
@[simp] theorem nodes_nil : nodes ([] : List α) = [] := rfl
@[simp] theorem nodes_cons : nodes (a :: as) = nodes a ++ nodes as := rfl
@[simp] theorem nodes_append {bs : List α} : nodes (as ++ bs) = nodes as ++ nodes bs :=
  List.flatMap_append
@[simp] theorem nodes_nodes : nodes ns = ns := List.flatMap_singleton' ns
@[simp] theorem nodes_none : nodes (none : Option α) = [] := rfl
@[simp] theorem nodes_some : nodes (some a) = nodes a := List.append_nil _
@[simp] theorem nodes_prod (c : α × β) : nodes c = nodes c.1 ++ nodes c.2 := rfl
@[simp] theorem nodes_path (p : Path) : nodes p = p.nodes := rfl
@[simp] theorem nodes_type (t : TypeShape) : nodes t = t.nodes := rfl
@[simp] theorem nodes_pattern (p : Pattern) : nodes p = p.nodes := rfl

@[simp] theorem nodes_types (ts : List TypeShape) : nodes ts = ts.flatMap TypeShape.nodes := rfl
@[simp] theorem nodes_patterns (ps : List Pattern) : nodes ps = ps.flatMap Pattern.nodes := rfl

@[simp] theorem nodes_blanks {γ : Type} [Blank γ] (cs : List γ) : nodes cs = [] :=
  List.flatMap_eq_nil_iff.mpr fun _ _ => rfl

@[simp] theorem nodes_seconds {γ : Type} [Blank γ] (cs : List (γ × List Node)) :
    nodes cs = cs.flatMap (·.2) := by
  induction cs with
  | nil => rfl
  | cons c cs ih => rw [nodes_cons, ih, List.flatMap_cons, nodes_prod, nodes_nodes]; rfl

@[simp] theorem nodes_flatten {nss : List (List Node)} : nodes nss = nss.flatten := by
  induction nss with
  | nil => rfl
  | cons ns nss ih => rw [nodes_cons, nodes_nodes, ih, List.flatten_cons]

end

namespace Parser

section

variable {α β : Type} {p q : Parser α} {f : α → Parser β} {ts us : List Token}

theorem run_bind_eq_ok {s s'' : State} {b : β} (h : (p >>= f).run s = .ok (b, s'')) :
    ∃ a s', p.run s = .ok (a, s') ∧ (f a).run s' = .ok (b, s'') := by
  rw [StateT.run_bind] at h
  cases ha : p.run s with
  | error e => rw [ha] at h; cases h
  | ok as =>
    rw [ha] at h
    exact ⟨as.1, as.2, rfl, h⟩

theorem run_ite_eq_ok {c : Prop} [Decidable c] {s s' : State} {a : α}
    (h : (if c then p else q).run s = .ok (a, s')) :
    p.run s = .ok (a, s') ∨ q.run s = .ok (a, s') := by
  split at h
  · exact .inl h
  · exact .inr h

/-! ### Readers that go on -/

/-- The tokens that a reader leaves stand after those that it takes. -/
class Moves (p : Parser α) : Prop where
  moves : ∀ {m e s a s'}, Between m e s.rest → p.run s = .ok (a, s') →
    ∃ h, m ≤ h ∧ Between h e s'.rest

/-- A reader never goes well. -/
class Fails (p : Parser α) : Prop where
  fails : ∀ s, ∃ f, p.run s = .error f

instance (e : Fault) : Fails (throw e : Parser α) := ⟨fun _ => ⟨e, rfl⟩⟩

instance [Fails p] : Fails (p >>= f) where
  fails s := by
    obtain ⟨e, h⟩ := Fails.fails (p := p) s
    exact ⟨e, by rw [StateT.run_bind, h]; rfl⟩

instance [h : ∀ a, Fails (f a)] : Fails (p >>= f) where
  fails s := by
    rw [StateT.run_bind]
    cases p.run s with
    | error e => exact ⟨e, rfl⟩
    | ok a => exact (h a.1).fails a.2

instance {c : Prop} [Decidable c] [Fails p] [Fails q] : Fails (if c then p else q) := by
  split <;> infer_instance

instance (c : Cause) : Fails (fail c : Parser α) := ⟨fun _ => ⟨_, rfl⟩⟩
instance (at' : Place) (c : Cause) : Fails (failAt at' c : Parser α) := ⟨fun _ => ⟨_, rfl⟩⟩
instance (ws : List Want) : Fails (failAmong ws : Parser α) := ⟨fun _ => ⟨_, rfl⟩⟩

namespace Moves

/-- A reader that leaves a part of the tokens. -/
theorem of_suffix (h : ∀ s a s', p.run s = .ok (a, s') → s'.rest <:+ s.rest) : Moves p where
  moves hb hr := hb.suffix (h _ _ _ hr)

theorem of_rest (h : ∀ s a s', p.run s = .ok (a, s') → s'.rest = s.rest) : Moves p :=
  of_suffix fun s a s' hr => h s a s' hr ▸ List.suffix_refl _

instance (priority := low) of_fails [Fails p] : Moves p where
  moves _ hr := by
    obtain ⟨e, h⟩ := Fails.fails (p := p) _
    rw [h] at hr
    cases hr

instance pure (a : α) : Moves (Pure.pure a : Parser α) :=
  of_rest fun _ _ _ hr => congrArg State.rest (Prod.mk.inj (Except.ok.inj hr)).2.symm

instance get : Moves (MonadState.get : Parser State) :=
  of_rest fun _ _ _ hr => congrArg State.rest (Prod.mk.inj (Except.ok.inj hr)).2.symm

instance bind [Moves p] [h : ∀ a, Moves (f a)] : Moves (p >>= f) where
  moves hb hr := by
    obtain ⟨a, s, hp, hr⟩ := run_bind_eq_ok hr
    obtain ⟨j, hj, hb⟩ := moves hb hp
    obtain ⟨h, hh, hb⟩ := moves hb hr
    exact ⟨h, hj.trans hh, hb⟩

instance ite {c : Prop} [Decidable c] [Moves p] [Moves q] : Moves (if c then p else q) := by
  split <;> infer_instance

instance ahead : Moves Parser.ahead :=
  of_rest fun _ _ _ hr => congrArg State.rest (Prod.mk.inj (Except.ok.inj hr)).2.symm

instance here : Moves Parser.here :=
  of_rest fun _ _ _ hr => congrArg State.rest (Prod.mk.inj (Except.ok.inj hr)).2.symm

instance turns : Moves Parser.turns := bind

instance spanFrom (start : Place) : Moves (Parser.spanFrom start) := bind

instance anything : Moves Parser.anything :=
  of_suffix fun _ _ _ hr => (Prod.mk.inj (Except.ok.inj hr)).2 ▸ List.nil_suffix

instance afterBrace (b : Bool) : Moves (modify fun s => { s with afterBrace := b }) :=
  of_rest fun _ _ _ hr => (Prod.mk.inj (Except.ok.inj hr)).2 ▸ rfl

end Moves

/-! ### Tokens looked at and taken -/

variable {stop : Nat}

theorem afterMarks?_suffix {cs : List Char} (h : afterMarks? cs ts = some (us, stop)) :
    us <:+ ts := by
  fun_induction afterMarks? cs ts with
  | case1 =>
    obtain ⟨rfl, -⟩ := Prod.mk.inj (Option.some.inj h)
    exact List.suffix_cons _ _
  | case3 _ _ _ _ _ _ _ _ _ ih => exact (ih h).trans (List.suffix_cons _ _)
  | _ => cases h

theorem afterSpelled?_suffix {text : String} (h : afterSpelled? text ts = some (us, stop)) :
    us <:+ ts := by
  unfold afterSpelled? at h
  split at h
  · split at h
    · split at h
      · obtain ⟨rfl, -⟩ := Prod.mk.inj (Option.some.inj h)
        exact List.suffix_cons _ _
      · cases h
    · cases h
  · exact afterMarks?_suffix h

theorem literalAhead?_suffix {l : Literal} {negative : Bool}
    (h : literalAhead? ts = some (l, negative, us, stop)) : us <:+ ts := by
  have hone {t : Token} {vs : List Token} {l' : Literal} {b : Bool} {k : Nat}
      (h : some (l', b, vs, k) = some (l, negative, us, stop)) : us <:+ t :: vs := by
    obtain ⟨-, -, rfl, -⟩ := by simpa using h
    exact List.suffix_cons t _
  unfold literalAhead? at h
  split at h
  · exact hone h
  · split at h
    · exact hone h
    · split at h
      · exact hone h
      · cases h
  · split at h
    · exact (hone h).trans (List.suffix_cons _ _)
    · exact (hone h).trans (List.suffix_cons _ _)
    · cases h
  · cases h

theorem decimalAhead?_suffix {text : List Char} (h : decimalAhead? ts = some (text, us, stop)) :
    us <:+ ts := by
  have hone {t : Token} {vs : List Token} {cs : List Char} {k : Nat}
      (h : some (cs, vs, k) = some (text, us, stop)) : us <:+ t :: vs := by
    obtain ⟨-, rfl, -⟩ := by simpa using h
    exact List.suffix_cons t _
  unfold decimalAhead? at h
  split at h
  · split at h
    · exact hone h
    · cases h
  · split at h
    · exact (hone h).trans (List.suffix_cons _ _)
    · cases h
  · cases h

/-- A reader goes on when it knows which tokens come next. -/
structure MovesAt (ts : List Token) (p : Parser α) : Prop where
  moves : ∀ {m e s a s'}, s.rest = ts → Between m e ts → p.run s = .ok (a, s') →
    ∃ h, m ≤ h ∧ Between h e s'.rest

namespace MovesAt

theorem of_moves [Moves p] : MovesAt ts p := ⟨fun hs hb hr => Moves.moves (hs ▸ hb) hr⟩

theorem goOn (hs : us <:+ ts) : MovesAt ts (Parser.goOn us stop) where
  moves _ hb hr := by
    obtain ⟨-, rfl⟩ := Prod.mk.inj (Except.ok.inj hr)
    exact hb.suffix hs

theorem bind (hp : MovesAt ts p) [hf : ∀ a, Moves (f a)] : MovesAt ts (p >>= f) where
  moves hs hb hr := by
    obtain ⟨a, s, hp', hr⟩ := run_bind_eq_ok hr
    obtain ⟨j, hj, hb⟩ := hp.moves hs hb hp'
    obtain ⟨h, hh, hb⟩ := Moves.moves hb hr
    exact ⟨h, hj.trans hh, hb⟩

end MovesAt

namespace Moves

theorem ahead_bind {f : List Token → Parser β} (h : ∀ ts, MovesAt ts (f ts)) :
    Moves (Parser.ahead >>= f) where
  moves hb hr := by
    obtain ⟨ts, s, hahead, hr⟩ := run_bind_eq_ok hr
    obtain ⟨rfl, rfl⟩ := Prod.mk.inj (Except.ok.inj hahead)
    exact (h _).moves rfl hb hr

instance take (text : String) : Moves (Parser.take text) := ahead_bind fun ts => by
  split
  · exact .goOn (afterSpelled?_suffix ‹_›)
  · exact .of_moves

instance takes (text : String) : Moves (Parser.takes text) := ahead_bind fun ts => by
  split
  · exact .bind (.goOn (afterSpelled?_suffix ‹_›))
  · exact .of_moves

instance takesAny (texts : List String) : Moves (Parser.takesAny texts) := ahead_bind fun ts => by
  split
  · rename_i us stop h
    obtain ⟨text, -, h⟩ := List.exists_of_findSome?_eq_some h
    exact .bind (.goOn (afterSpelled?_suffix h))
  · exact .of_moves

instance anyName : Moves Parser.anyName := ahead_bind fun ts => by
  split
  · exact .bind (.goOn (List.suffix_cons _ _))
  · exact .of_moves

instance name : Moves Parser.name := ahead_bind fun ts => by
  split
  · split
    · exact .of_moves
    · exact .bind (.goOn (List.suffix_cons _ _))
  · exact .of_moves

instance word : Moves Parser.word := bind

instance identifier : Moves Parser.identifier := bind

instance lifetime : Moves Parser.lifetime := ahead_bind fun ts => by
  split
  · exact .goOn (List.suffix_cons _ _)
  · exact .of_moves

instance lifetimeIfAny : Moves Parser.lifetimeIfAny := bind

instance literal : Moves Parser.literal := ahead_bind fun ts => by
  split
  · exact .bind (.goOn (literalAhead?_suffix ‹_›))
  · exact .of_moves

instance anyGroup : Moves Parser.anyGroup := ahead_bind fun ts => by
  split
  · exact .bind (.goOn (List.suffix_cons _ _))
  · exact .of_moves

instance goOn_nil : Moves (Parser.goOn [] stop) :=
  of_suffix fun _ _ _ hr => (Prod.mk.inj (Except.ok.inj hr)).2 ▸ List.nil_suffix

theorem run_peek (s : State) : (Parser.peek p).run s = (p.run s).map fun a => (a, s) := by
  unfold Parser.peek
  rw [StateT.run_bind]
  cases h : p.run s <;> simp [h] <;> rfl

instance peek : Moves (Parser.peek p) := of_rest fun s a s' hr => by
  rw [run_peek] at hr
  cases hp : p.run s with
  | error e => rw [hp] at hr; cases hr
  | ok a =>
    rw [hp] at hr
    cases hr
    rfl

end Moves

/-! ### Readers that need a token -/

theorem afterSpelled?_nil (text : String) : afterSpelled? text [] = none := by
  unfold afterSpelled?
  split
  · rfl
  · cases text.toList with
    | nil => rfl
    | cons c cs => cases cs <;> rfl

theorem run_takes_nil {s : State} (hs : s.rest = []) (text : String) :
    (takes text).run s = .ok (false, s) := by
  rw [takes, StateT.run_bind]
  simp only [ahead, StateT.run_map, StateT.run_get, map_pure, hs, pure_bind, afterSpelled?_nil,
    StateT.run_pure]
  rfl

/-- A reader fails when no token is left. -/
class Needs (p : Parser α) : Prop where
  needs : ∀ s, s.rest = [] → ∃ f, p.run s = .error f

theorem Needs.rest_ne_nil [Needs p] {s s' : State} {a : α} (hr : p.run s = .ok (a, s')) :
    s.rest ≠ [] := by
  intro hs
  obtain ⟨e, h⟩ := Needs.needs (p := p) s hs
  rw [h] at hr
  cases hr

namespace Needs

instance (priority := low) of_fails [Fails p] : Needs p := ⟨fun s _ => Fails.fails s⟩

instance bind [Needs p] : Needs (p >>= f) where
  needs s hs := by
    obtain ⟨e, h⟩ := needs (p := p) s hs
    exact ⟨e, by rw [StateT.run_bind, h]; rfl⟩

instance ite {c : Prop} [Decidable c] [Needs p] [Needs q] : Needs (if c then p else q) := by
  split <;> infer_instance

instance ahead_bind {f : List Token → Parser β} [h : ∀ ts, Needs (f ts)] :
    Needs (Parser.ahead >>= f) :=
  ⟨fun s hs => (h s.rest).needs s hs⟩

instance here_bind {f : Place → Parser β} [h : ∀ start, Needs (f start)] :
    Needs (Parser.here >>= f) :=
  ⟨fun s hs => (h s.place).needs s hs⟩

instance takes_bind {text : String} {f : Bool → Parser β} [h : Needs (f false)] :
    Needs (Parser.takes text >>= f) where
  needs s hs := by
    rw [StateT.run_bind, run_takes_nil hs]
    exact h.needs s hs

theorem of_ahead {f : List Token → Parser β} (h : Fails (f [])) : Needs (Parser.ahead >>= f) where
  needs s hs := by
    obtain ⟨e, h⟩ := h.fails s
    exact ⟨e, by rw [StateT.run_bind]; simpa [Parser.ahead, hs] using h⟩

instance take (text : String) : Needs (Parser.take text) := of_ahead (by
  rw [afterSpelled?_nil]
  infer_instance)

instance literal : Needs Parser.literal := of_ahead (inferInstanceAs (Fails (fail _)))

instance anyName : Needs Parser.anyName := of_ahead (inferInstanceAs (Fails (fail _)))

instance name : Needs Parser.name := of_ahead (inferInstanceAs (Fails (fail _)))

instance word : Needs Parser.word := bind

instance identifier : Needs Parser.identifier := bind

instance within (d : Delimiter) : Needs (Parser.within d p) where
  needs s hs := by
    obtain ⟨rest⟩ := s
    obtain rfl : rest = [] := hs
    exact ⟨_, rfl⟩

end Needs

theorem run_many_nil {α : Type} {s : State} {p : Parser α} (hs : s.rest = [])
    {more : List Token → Bool} (hm : more [] = false) : (many more p).run s = .ok ([], s) := by
  obtain ⟨rest⟩ := s
  obtain rfl : rest = [] := hs
  change (if more [] = true then p >>= fun a => manyFrom more p 0 >>= fun as => pure (a :: as)
    else pure [] : Parser (List α)).run _ = _
  rw [hm]
  rfl

theorem between_place {m e : Nat} {s : State} (h : Between m e s.rest) (hs : s.rest ≠ []) :
    m ≤ s.place.line ∧ Between s.place.line e s.rest := by
  obtain ⟨rest⟩ := s
  cases rest with
  | nil => exact absurd rfl hs
  | cons t ts => exact ⟨h.1, Nat.le_refl _, h.2⟩

end

end Parser

end Retrace.Source
