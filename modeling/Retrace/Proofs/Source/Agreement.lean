import Retrace.Proofs.Source.Scanning
import Retrace.Proofs.Source.Sites
import Retrace.Proofs.Trace.Replay

/-! An instrumentation call with literals for arguments says the same before a run and in it: what
is read off its arguments is what the program reports about them. -/
namespace Retrace.Source

/-- The node is a string literal for a text. -/
def Node.SpellsText (n : Node) (t : String) : Prop :=
  ∃ w, n.form = .literal (.ofText w) ∧ StringLiteral w t.toList ∧ Steady w

mutual
/-- The node is an expression of literals that evaluates to a datum. -/
inductive Node.Spells : Node → Datum → Prop
  | text {n t} : n.SpellsText t → Node.Spells n (.text t)
  | char {n w c} : n.form = .literal (.ofText w) → CharLiteral w c → Node.Spells n (.char c)
  | byte {n w k} : n.form = .literal (.ofText w) → ByteLiteral w k → Node.Spells n (.whole k)
  | truth {n b} : n.form = .literal (.truth b) → Node.Spells n (.truth b)
  | whole {n w k} : n.form = .literal (.ofText w) → WholeLiteral w k → Node.Spells n (.whole k)
  | negation {n x} {k : Int} : n.form = .negation → n.operands = [x] → Node.Spells x (.whole k) →
      k.natAbs ≤ 0x7FFFFFFFFFFFFFFF → Node.Spells n (.whole (-k))
  | parenthesized {n x d} : n.form = .parenthesized → n.operands = [x] → Node.Spells x d →
      Node.Spells n d
  | reference {n x d} : n.form = .reference → n.operands = [x] → Node.Spells x d → Node.Spells n d
  | array {n ds} : n.form = .array → Node.SpellEach n.operands ds → Node.Spells n (.list ds)
  | vector {n name line braced ds} : n.form = .invocation (some "vec") name line true braced →
      Node.SpellEach n.operands ds → Node.Spells n (.list ds)

/-- The nodes are such expressions, one for each datum. -/
inductive Node.SpellEach : List Node → List Datum → Prop
  | nil : Node.SpellEach [] []
  | cons {n ns d ds} : Node.Spells n d → Node.SpellEach ns ds →
      Node.SpellEach (n :: ns) (d :: ds)
end

variable {n m x : Node} {ns : List Node} {d : Datum} {ds : List Datum} {t : String}
  {text : List Char} {call : NamedCall} {args : List Node} {a : Address}
  {source : String} {s : Snippet}

namespace Node

theorem operandValue_eq (text : List Char) (ns : List Node) : operandValue text ns =
    ((ns.filter fun c => !c.isAttribute).head?.map (value text)).getD .null := by
  induction ns with
  | nil => rfl
  | cons n ns ih =>
    rw [operandValue]
    cases h : n.isAttribute with
    | true => simp [h, ih]
    | false => simp [h]

theorem operandValues_eq (text : List Char) (ns : List Node) : operandValues text ns =
    (ns.filter fun c => !c.isAttribute).map (value text) := by
  induction ns with
  | nil => rfl
  | cons n ns ih =>
    rw [operandValues]
    cases h : n.isAttribute with
    | true => simp [h, ih]
    | false => simp [h, ih]

theorem value_literal {l : Literal} (h : n.form = .literal l) : n.value text = l.value := by
  obtain ⟨form, span, children⟩ := n
  obtain rfl : form = .literal l := h
  rfl

theorem operandValue_single (text : List Char) (hx : n.operands = [x]) :
    operandValue text n.children = x.value text := by
  have hfilter : (n.children.filter fun c => !c.isAttribute) = [x] := hx
  rw [operandValue_eq, hfilter]
  rfl

theorem value_negation {k : Int} (h : n.form = .negation) (hx : n.operands = [x])
    (hk : x.value text = .int k) : n.value text = .int (-k) := by
  have hoperand := (operandValue_single text hx).trans hk
  obtain ⟨form, span, children⟩ := n
  obtain rfl : form = .negation := h
  have hchildren : operandValue text children = .int k := hoperand
  rw [value, hchildren]

theorem value_inner (h : n.form = .parenthesized ∨ n.form = .reference) (hx : n.operands = [x]) :
    n.value text = x.value text := by
  have hoperand := operandValue_single text hx
  obtain ⟨form, span, children⟩ := n
  rcases h with h | h <;> obtain rfl := h <;> exact hoperand

theorem value_list (h : n.form = .array ∨
      ∃ name line braced, n.form = .invocation (some "vec") name line true braced) :
    n.value text = .list (n.operands.map (value text)) := by
  have hoperands := operandValues_eq text n.children
  obtain ⟨form, span, children⟩ := n
  rcases h with h | ⟨name, line, braced, h⟩ <;> obtain rfl := h <;>
    exact congrArg Value.list hoperands

theorem fits_of_natAbs_le {k : Int} (h : k.natAbs ≤ 0x7FFFFFFFFFFFFFFF) :
    Value.fits k = true ∧ Value.fits (-k) = true := by
  rw [Value.fits_iff, Value.fits_iff]
  simp only [Value.leastInt, Value.greatestInt]
  omega

mutual
/-- What is read off an expression of literals is the value of what it evaluates to. -/
theorem Spells.value_eq (text : List Char) : ∀ {n d}, Spells n d → n.value text = d.value
  | _, _, .text h => by
    obtain ⟨w, hw, hs, hsteady⟩ := h
    rw [value_literal hw, hs.read hsteady, Literal.value, String.ofList_toList]
    rfl
  | _, _, .char hw hs => by
    rw [value_literal hw, hs.read]
    rfl
  | _, _, @Spells.byte _ _ k hw hs => by
    have hlt := hs.lt
    have hk : (k : Int).natAbs ≤ 0x7FFFFFFFFFFFFFFF := by omega
    have hbyte : k.toUInt8.toNat = k := UInt8.toNat_ofNat_of_lt hlt
    rw [value_literal hw, hs.read, Literal.value, hbyte, Datum.value, Value.ofInt,
      if_pos (fits_of_natAbs_le hk).1]
  | _, _, .truth hw => by
    rw [value_literal hw]
    rfl
  | _, _, .whole hw hs => by
    obtain ⟨suffix, hread⟩ := hs.read
    rw [value_literal hw, hread]
    rfl
  | _, _, .negation hn hx h hk => by
    obtain ⟨hfits, hnegated⟩ := fits_of_natAbs_le hk
    have hvalue := Spells.value_eq text h
    rw [Datum.value, Value.ofInt, if_pos hfits] at hvalue
    rw [value_negation hn hx hvalue, Datum.value, Value.ofInt, if_pos hnegated]
  | _, _, .parenthesized hn hx h => (value_inner (Or.inl hn) hx).trans (Spells.value_eq text h)
  | _, _, .reference hn hx h => (value_inner (Or.inr hn) hx).trans (Spells.value_eq text h)
  | _, _, .array hn h => by
    rw [value_list (Or.inl hn), SpellEach.values_eq text h]
    rfl
  | _, _, .vector hn h => by
    rw [value_list (Or.inr ⟨_, _, _, hn⟩), SpellEach.values_eq text h]
    rfl

theorem SpellEach.values_eq (text : List Char) :
    ∀ {ns ds}, SpellEach ns ds → ns.map (value text) = Datum.values ds
  | _, _, .nil => rfl
  | _, _, .cons h hs => by
    rw [List.map_cons, Spells.value_eq text h, SpellEach.values_eq text hs]
    rfl
end

mutual
/-- An expression of literals evaluates to no floating point number. -/
theorem Spells.floatFree : ∀ {n d}, Spells n d → d.floatFree = true
  | _, _, .text _ | _, _, .char _ _ | _, _, .byte _ _ | _, _, .truth _ | _, _, .whole _ _
  | _, _, .negation _ _ _ _ => rfl
  | _, _, .parenthesized _ _ h | _, _, .reference _ _ h => Spells.floatFree h
  | _, _, .array _ h | _, _, .vector _ h => SpellEach.floatsFree h

theorem SpellEach.floatsFree : ∀ {ns ds}, SpellEach ns ds → Datum.floatsFree ds = true
  | _, _, .nil => rfl
  | _, _, .cons h hs => by
    rw [Datum.floatsFree, Spells.floatFree h, SpellEach.floatsFree hs]
    rfl
end

theorem SpellEach.length_eq : ∀ {ns ds}, SpellEach ns ds → ns.length = ds.length
  | _, _, .nil => rfl
  | _, _, .cons _ h => congrArg Nat.succ (SpellEach.length_eq h)

theorem SpellsText.text? (h : n.SpellsText t) : n.text? = some t := by
  obtain ⟨w, hw, hs, hsteady⟩ := h
  obtain ⟨form, span, children⟩ := n
  obtain rfl : form = .literal (.ofText w) := hw
  rw [hs.read hsteady, Node.text?, String.ofList_toList]

end Node

/-! ### Calls -/

/-- The arguments spell the action and the details of a call, and its names and data in turn. -/
def SpellCall (args : List Node) (call : NamedCall) : Prop :=
  ∃ action details rest, args = action :: details :: rest ∧ action.SpellsText call.action ∧
    details.SpellsText call.details ∧ Node.SpellEach rest call.toCall.data

theorem SpellCall.even (h : SpellCall args call) : args.length % 2 = 0 := by
  obtain ⟨action, details, rest, rfl, -, -, hrest⟩ := h
  have hlength : call.toCall.data.length = 2 * call.pairs.length := by
    simp [NamedCall.toCall, Nat.mul_comm]
  have hrest := hrest.length_eq
  simp only [List.length_cons]
  omega

theorem SpellCall.reportable (h : SpellCall args call)
    (hdepth : ∀ p ∈ call.pairs, p.2.depth ≤ 60) : call.Reportable := by
  obtain ⟨action, details, rest, -, -, -, hrest⟩ := h
  intro p hp
  have hmem : p.2 ∈ call.toCall.data := by
    refine List.mem_flatMap.mpr ⟨p, hp, ?_⟩
    simp
  exact ⟨Datum.floatsFree_iff.mp hrest.floatsFree _ hmem, hdepth p hp⟩

namespace Site

/-- A collector before names and values in pairs changes nothing. -/
theorem ofArguments_cons (h : args.length % 2 = 0) (text : List Char)
    (enclosing : Option Enclosing) (line : Nat) (tracer : Node) :
    ofArguments text enclosing line (tracer :: args) = ofArguments text enclosing line args := by
  have hodd : (tracer :: args).length % 2 = 1 := by
    rw [List.length_cons]
    omega
  have heven : ¬args.length % 2 = 1 := by omega
  simp only [ofArguments, if_pos hodd, if_neg heven, List.drop_one, List.tail_cons]

theorem ofArguments_spelled (h : SpellCall args call) (text : List Char)
    (enclosing : Option Enclosing) (line : Nat) :
    (ofArguments text enclosing line args).action = call.action ∧
      (ofArguments text enclosing line args).details = call.details ∧
      (ofArguments text enclosing line args).bindings = .ofRows call.rows := by
  have heven : ¬args.length % 2 = 1 := by rw [h.even]; exact Nat.zero_ne_one
  obtain ⟨action, details, rest, rfl, haction, hdetails, hrest⟩ := h
  simp only [ofArguments, if_neg heven]
  refine ⟨?_, ?_, ?_⟩
  · simp [haction.text?]
  · simp [hdetails.text?]
  · exact (congrArg Value.bindings (hrest.values_eq text)).trans call.bindings_event

end Site

/-- The site of a call that is not inside another one is reported. -/
theorem Node.exists_reports (h : a ∈ n.calls) (text : List Char) (enclosing : Option Enclosing) :
    ∃ site ∈ n.sites text enclosing, n.Reports text enclosing a site := by
  obtain ⟨i, hi, hget⟩ := List.getElem_of_mem h
  have hreports := List.forall₂_iff_get.mp (forall₂_reports text enclosing n)
  have hi' : i < (n.sites text enclosing).length := hreports.1 ▸ hi
  refine ⟨_, List.getElem_mem hi', ?_⟩
  rw [← hget]
  exact hreports.2 i hi hi'

/-- A call with literals for arguments, with a collector before them or without, is reported when
the source text is scanned, unless it is inside another call, and it says there what the step
says that is replayed from the report of the running program. This is so for string literals that
are no raw literals with carriage returns; those are misread. No other string literals are found in
a source text than those that the arguments may be. -/
theorem literal_call_agrees (hs : Snippet.read source = .ok s) (hm : s.root.at? a = some m)
    (hcall : m.form.isCall = true) (houter : ¬s.root.Covered a)
    (hargs : m.operands = args ∨ ∃ tracer, m.operands = tracer :: args)
    (hspell : SpellCall args call) (hdepth : ∀ p ∈ call.pairs, p.2.depth ≤ 60) (c : Collector) :
    (staticTrace source = .ok (stepsFrom 1 s.sites) ∧
      ∃ site ∈ s.sites, s.root.Reports s.text none a site ∧
      ∃ c' step, c.ingest call.toCall.report.toList = (c', none) ∧ c'.steps = c.steps ++ [step] ∧
        (step.action = call.action ∧ step.details = call.details ∧
          step.bindings = .ofRows call.rows) ∧
        site.action = step.action ∧ site.details = step.details ∧
        site.bindings = step.bindings) ∧
    (∀ w t, StringLiteral w t → (Literal.ofText w = .text t ↔ Steady w)) ∧
    ∀ u n, u.head? = some '"' ∨ u.head? = some 'r' → (textLength? u = some n ↔
      ∃ w rest t, u = w ++ rest ∧ n = w.length + suffixLength rest ∧ StringLiteral w t) := by
  have hmem : a ∈ s.root.calls := by
    refine Node.mem_calls.mpr ⟨?_, houter⟩
    rw [Node.CallAt, hm]
    exact hcall
  refine ⟨?_, fun w t hw => hw.read_iff, fun u n hu => textLength?_eq_some_iff hu⟩
  obtain ⟨site, hsite, hreports⟩ := Node.exists_reports hmem s.text none
  obtain ⟨m', hm', hof⟩ := hreports
  obtain rfl : m = m' := Option.some.inj (hm.symm.trans hm')
  have hreports : s.root.Reports s.text none a site := ⟨m, hm, hof⟩
  have hsame : site = .ofArguments s.text (s.root.enclosingAt s.text none a)
      m.form.invocationLine args := by
    rcases hargs with hargs | ⟨tracer, hargs⟩
    · rw [hof, Site.ofCall, hargs]
    · rw [hof, Site.ofCall, hargs, Site.ofArguments_cons hspell.even]
  obtain ⟨haction, hdetails, hbindings⟩ := Site.ofArguments_spelled hspell s.text
    (s.root.enclosingAt s.text none a) m.form.invocationLine
  rw [← hsame] at haction hdetails hbindings
  obtain ⟨c', step, hingest, hsteps, ha, hd, hb⟩ :=
    Collector.ingest_report (hspell.reportable hdepth) c
  rw [s.sites_root] at hsite
  have htrace : staticTrace source = .ok (stepsFrom 1 s.sites) := by
    have hsome : s.sites.isEmpty = false := List.isEmpty_eq_false_iff_exists_mem.mpr ⟨site, hsite⟩
    rw [staticTrace_of_read hs, hsome, if_neg Bool.false_ne_true]
  exact ⟨htrace, site, hsite, hreports, c', step, hingest, hsteps,
    ⟨ha, hd, hb⟩, haction.trans ha.symm, hdetails.trans hd.symm,
    hbindings.trans hb.symm⟩

/-- A call with a collector, a raw literal, a negative number and a number in another base. -/
def literalSource : String :=
  "fn main() \x7b capture_step!(tracer, \"go\", r\"on\", \"ns\", vec![-1, 0x7f]); \x7d"

/-- What the program does at that call. -/
def literalCall : NamedCall :=
  { action := "go", details := "on", pairs := [("ns", .list [.whole (-1), .whole 0x7f])]
    function := "main", line := 1, backtrace := none }

/-- The forms of some nodes and of their operands, three levels deep. -/
def formsOf (ns : List Node) : List (Form × List (Form × List Form)) :=
  ns.map fun n => (n.form, n.operands.map fun c => (c.form, c.operands.map Node.form))

def literalForms : List (Form × List (Form × List Form)) :=
  [(.path (some "tracer") "tracer", []), (.literal (.ofText "\"go\"".toList), []),
    (.literal (.ofText "r\"on\"".toList), []), (.literal (.ofText "\"ns\"".toList), []),
    (.invocation (some "vec") "vec" 1 true false,
      [(.negation, [.literal (.ofText "1".toList)]), (.literal (.ofText "0x7f".toList), [])])]

theorem spellCall_literalForms (h : formsOf args = literalForms) :
    ∃ tracer rest, args = tracer :: rest ∧ SpellCall rest literalCall := by
  simp only [formsOf, literalForms, List.map_eq_cons_iff, List.map_eq_nil_iff, Prod.mk.injEq] at h
  obtain ⟨tracer, _, rfl, -, action, _, rfl, ⟨haction, -⟩, details, _, rfl, ⟨hdetails, -⟩,
    key, _, rfl, ⟨hkey, -⟩, list, _, rfl, ⟨hlist, minus, _, hoperands, ⟨hminus, one, _, hone,
      hform, rfl⟩, last, _, rfl, ⟨hlast, -⟩, rfl⟩, rfl⟩ := h
  have hquoted : ∀ a b : Char, a ∉ ['"', '\\', '\r'] → b ∉ ['"', '\\', '\r'] →
      StringLiteral ['"', a, b, '"'] [a, b] :=
    fun a b ha hb => .quoted (.plain ha (.plain hb .done))
  have hraw : StringLiteral "r\"on\"".toList "on".toList :=
    @StringLiteral.raw 0 _ _ (by decide)
      (.plain (by decide) (by decide) (.plain (by decide) (by decide) .nil))
  have hwhole : WholeLiteral "1".toList 1 :=
    @WholeLiteral.mk [] 10 ['1'] [1] [] (by decide) (by decide)
      (.digit (by decide) (by decide) .nil) (by decide) (by decide)
  have hhex : WholeLiteral "0x7f".toList 0x7f :=
    @WholeLiteral.mk ['0', 'x'] 16 ['7', 'f'] [7, 15] [] (by decide) (by decide)
      (.digit (by decide) (by decide) (.digit (by decide) (by decide) .nil)) (by decide) (by decide)
  have hminus : minus.Spells (.whole (-1)) :=
    .negation hminus hone (.whole hform hwhole) (by decide)
  have hlist : list.Spells (.list [.whole (-1), .whole 0x7f]) := by
    refine .vector hlist ?_
    rw [hoperands]
    exact .cons hminus (.cons (.whole hlast hhex) .nil)
  refine ⟨tracer, _, rfl, action, details, _, rfl, ?_, ?_, ?_⟩
  · exact ⟨_, haction, hquoted 'g' 'o' (by decide) (by decide), by decide⟩
  · exact ⟨_, hdetails, hraw, by decide⟩
  · exact .cons (.text ⟨_, hkey, hquoted 'n' 's' (by decide) (by decide), by decide⟩)
      (.cons hlist .nil)

/-- The call says the same in the static trace as in the recorded one. -/
theorem literal_call_agrees_sample : ∃ s m args, Snippet.read literalSource = .ok s ∧
    s.root.at? [0, 0, 0] = some m ∧ m.form.isCall = true ∧ ¬s.root.Covered [0, 0, 0] ∧
    (∃ tracer, m.operands = tracer :: args) ∧ SpellCall args literalCall ∧
    ∃ site ∈ s.sites, site.action = "go" ∧ site.details = "on" ∧
      site.bindings.get? "ns" = some (.list [.int (-1), .int 127]) := by
  have hfacts : (Snippet.read literalSource).toOption.any (fun s =>
      s.root.calls.contains [0, 0, 0] && (s.root.at? [0, 0, 0]).any fun m =>
        m.form.isCall && formsOf m.operands == literalForms) = true := by decide +kernel
  cases hs : Snippet.read literalSource with
  | error f => rw [hs] at hfacts; cases hfacts
  | ok s =>
    cases hm : s.root.at? [0, 0, 0] with
    | none => simp [hs, hm, Except.toOption] at hfacts
    | some m =>
      simp only [hs, hm, Except.toOption, Option.any, Bool.and_eq_true, beq_iff_eq,
        List.contains_iff_mem] at hfacts
      obtain ⟨hfound, hcall, hforms⟩ := hfacts
      have houter : ¬s.root.Covered [0, 0, 0] := (Node.mem_calls.mp hfound).2
      obtain ⟨tracer, args, hargs, hspell⟩ := spellCall_literalForms hforms
      obtain ⟨⟨-, site, hsite, -, c, step, -, -, ⟨ha, hd, hb⟩, haction, hdetails, hbindings⟩, -⟩ :=
        literal_call_agrees hs hm hcall houter (Or.inr ⟨tracer, hargs⟩) hspell (by decide)
          (.new .default .empty)
      refine ⟨s, m, args, rfl, hm, hcall, houter, ⟨tracer, hargs⟩, hspell, site, hsite,
        haction.trans ha, hdetails.trans hd, ?_⟩
      rw [hbindings, hb, literalCall.get?_rows]
      rfl

end Retrace.Source
