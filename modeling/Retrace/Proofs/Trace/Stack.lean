import Retrace.Proofs.Trace.Origin

/-! The call stack of a recorded step: one frame for each frame of the call chain that is not left
out, in the opposite order. The last one has the variables of the call, each under its name among
the parameters or among the locals. -/
namespace Retrace

/-- The routine and the line that a frame of a stack shows. -/
def Frame.place (b : Frame) : String × Line := (b.function, b.line)

/-- The names in a frame that have values, with their values: parameters first, then locals. -/
def Frame.held (b : Frame) : List (String × Value) :=
  (b.parameters.rows ++ b.locals.rows).filterMap fun row => row.2.map fun v => (row.1, v)

/-- The routine and the line of a frame of a call chain. -/
def RawFrame.place (f : RawFrame) : String × Line := (f.short, f.line)

namespace Collector

variable {d : Denylist} {k : CallContext} {f inner : RawFrame} {fs outer : List RawFrame}
  {bs : List Frame} {vs : Bindings}
  {t : Signatures} {name : String}

/-! ### The frames of a stack -/

/-- The line of an innermost frame: that of the call site if the site is of the same routine and
knows its line, and else the line that the call chain gives. -/
def innermostLine (site : Option RawFrame) (f : RawFrame) : Line :=
  ((site.filter fun s => s.short = f.short).bind RawFrame.line).or f.line

theorem map_place (h : List.Forall₂ MadeFrom fs bs) :
    bs.map Frame.place = fs.map RawFrame.place := by
  induction h with
  | nil => rfl
  | cons hfb _ ih =>
    rw [List.map_cons, List.map_cons, ih, Frame.place, hfb.function, hfb.line]
    rfl

/-- The call site changes the line of the innermost frame of a chain, and nothing else. -/
theorem origins_of_chain (h : chainFrames d k = outer ++ [inner]) :
    origins d k = outer ++ [{ inner with line := innermostLine k.site inner }] := by
  have hkept : ((k.chain.getD []).filter fun f => !d.denies f.symbol) = inner :: outer.reverse := by
    rw [← List.reverse_reverse (List.filter _ _)]
    have hreverse := congrArg List.reverse h
    simpa [chainFrames] using hreverse
  cases hk : k.site with
  | none => simp [origins, userFrames, hk, hkept, innermostLine]
  | some site =>
    by_cases hs : site.short = inner.short <;>
      simp [origins, userFrames, hk, hkept, innermostLine, Option.filter_some, hs]

theorem exists_innermost (h : ∃ f ∈ k.chain.getD [], d.denies f.symbol = false) :
    ∃ outer inner, chainFrames d k = outer ++ [inner] := by
  obtain ⟨f, hf, hd⟩ := h
  have hne : chainFrames d k ≠ [] := List.ne_nil_of_mem (mem_chainFrames.mpr ⟨hf, hd⟩)
  exact ⟨_, _, (List.dropLast_concat_getLast hne).symm⟩

/-- A recorded stack shows the frames of the call chain that are not denied, the oldest one first:
none of them is lost or comes twice, and each shows its routine and its line. Only the line of the
innermost one may be known better by the call site. If no frame of a chain is left, the stack shows
the call site, if there is one. -/
theorem stack_shows_chain (c : Collector) (r : Recording) :
    ∃ s, (c.take r).steps = c.steps ++ [s] ∧
      ((∃ f ∈ r.context.chain.getD [], c.denylist.denies f.symbol = false) →
        ∃ outer inner, chainFrames c.denylist r.context = outer ++ [inner] ∧
          s.stack.map Frame.place = outer.map RawFrame.place ++
            [(inner.short, innermostLine r.context.site inner)]) ∧
      ((∀ f ∈ r.context.chain.getD [], c.denylist.denies f.symbol = true) →
        s.stack.map Frame.place = (r.context.site.map RawFrame.place).toList) := by
  have hplace : (c.stepFor r).stack.map Frame.place =
      (origins c.denylist r.context).map RawFrame.place :=
    map_place (madeFrom_buildStack _ _ _ _)
  refine ⟨c.stepFor r, steps_take c r, fun hkept => ?_, fun hdenied => ?_⟩
  · obtain ⟨outer, inner, hchain⟩ := exists_innermost hkept
    refine ⟨outer, inner, hchain, ?_⟩
    rw [hplace, origins_of_chain hchain, List.map_append]
    rfl
  · rw [hplace, origins_of_no_chain (chainFrames_eq_nil_iff.mpr hdenied)]
    cases r.context.site <;> rfl

example :
    let chain := [("core::x", 1), ("b::g", 2), ("std::y", 3), ("b::f", 4)].map fun f =>
      RawFrame.ofSymbol f.1 (some f.2)
    let site := RawFrame.ofSymbol "a::g" (some 7)
    ((new .default .empty).stepFor ⟨"", "", .empty, some chain, some site⟩).stack.map Frame.place =
      [("f", some 4), ("g", some 7)] := by decide

/-! ### The variables of a call -/

/-- The variables of a call stand in a frame each once: those that are declared are parameters, and
the others are locals in the order of the call. A declared parameter that is not among the variables
has no value. -/
structure SharesOut (declared : List String) (vs : Bindings) (b : Frame) : Prop where
  parameters : b.parameters.keys = declared.eraseDups
  distinct : b.parameters.keys.Nodup
  given : ∀ name v, (name, v) ∈ vs.rows → name ∈ declared →
    b.parameters.get? name = some (some v)
  missing : ∀ name ∈ declared, name ∉ vs.keys → b.parameters.get? name = some none
  locals : b.locals.rows =
    (vs.rows.filter fun row => row.1 ∉ declared).map fun row => (row.1, some row.2)
  once : ∀ name ∈ vs.keys, (b.parameters.keys ++ b.locals.keys).count name = 1
  held : b.held.Perm vs.rows

theorem keys_parameters (t : Signatures) (f : RawFrame) (vs : Bindings) :
    (innermostFrame t f vs).parameters.keys = (t.params f.short).eraseDups := by
  simp [innermostFrame, Table.keys_ofRows, Function.comp_def]

/-- A declared parameter has the value of the variable of its name. -/
theorem get?_parameters (vs : Bindings) (h : name ∈ t.params f.short) :
    (innermostFrame t f vs).parameters.get? name = some (vs.get? name) := by
  apply Table.get?_eq_some_iff.mpr
  have hrows := Table.rows_ofRows_map (t.params f.short) vs.get?
  rw [innermostFrame, hrows]
  exact List.mem_map_of_mem (f := fun name => (name, vs.get? name)) (List.mem_eraseDups.mpr h)

theorem keys_locals (t : Signatures) (f : RawFrame) (vs : Bindings) :
    (innermostFrame t f vs).locals.keys = vs.keys.filter fun name => name ∉ t.params f.short := by
  simp [innermostFrame, Table.keys, Table.rows_map, Table.rows_filter, List.filter_map,
    Function.comp_def]

/-- No variable comes both as a parameter and as a local, or not at all. -/
theorem count_variable (t : Signatures) (f : RawFrame) (hn : name ∈ vs.keys) :
    ((innermostFrame t f vs).parameters.keys ++
      (innermostFrame t f vs).locals.keys).count name = 1 := by
  have hp := (innermostFrame t f vs).parameters.nodup_keys
  rw [keys_parameters] at hp
  rw [keys_parameters, keys_locals, List.count_append]
  by_cases hd : name ∈ t.params f.short
  · rw [List.count_eq_one_of_mem hp (List.mem_eraseDups.mpr hd),
      List.count_eq_zero_of_not_mem fun hm => ?_]
    simpa [hd] using (List.mem_filter.mp hm).2
  · rw [List.count_eq_zero_of_not_mem fun hm => hd (List.mem_eraseDups.mp hm), Nat.zero_add,
      List.count_eq_one_of_mem (vs.nodup_keys.filter _)
        (List.mem_filter.mpr ⟨hn, by simpa using hd⟩)]

/-- The parameters that have values are the variables that are declared. -/
theorem perm_given (t : Signatures) (f : RawFrame) (vs : Bindings) :
    ((innermostFrame t f vs).parameters.rows.filterMap fun row =>
      row.2.map fun v => (row.1, v)).Perm
      (vs.rows.filter fun row => row.1 ∈ t.params f.short) := by
  have hp := (innermostFrame t f vs).parameters.nodup_keys
  rw [keys_parameters] at hp
  rw [innermostFrame, Table.rows_ofRows_map, List.filterMap_map]
  have hv : vs.rows.Nodup := List.Nodup.of_map _ vs.distinct
  refine (List.perm_ext_iff_of_nodup (hp.filterMap ?_) (hv.filter _)).mpr ?_
  · rintro name name' row hrow hrow'
    obtain ⟨v, -, rfl⟩ := Option.map_eq_some_iff.mp hrow
    obtain ⟨v', -, he⟩ := Option.map_eq_some_iff.mp hrow'
    exact (congrArg Prod.fst he).symm
  · rintro ⟨name, v⟩
    rw [List.mem_filterMap, List.mem_filter, ← Table.get?_eq_some_iff, decide_eq_true_iff]
    constructor
    · rintro ⟨name', hname, hrow⟩
      obtain ⟨v', hget, he⟩ := Option.map_eq_some_iff.mp hrow
      obtain ⟨rfl, rfl⟩ := Prod.mk.inj he
      exact ⟨hget, List.mem_eraseDups.mp hname⟩
    · rintro ⟨hget, hname⟩
      exact ⟨name, List.mem_eraseDups.mpr hname, Option.map_eq_some_iff.mpr ⟨v, hget, rfl⟩⟩

theorem sharesOut_innermostFrame (t : Signatures) (f : RawFrame) (vs : Bindings) :
    SharesOut (t.params f.short) vs (innermostFrame t f vs) where
  parameters := keys_parameters t f vs
  distinct := Table.nodup_keys _
  given name v hm hd := by rw [get?_parameters vs hd, Table.get?_eq_some_iff.mpr hm]
  missing name hd hn := by rw [get?_parameters vs hd, Table.get?_eq_none_iff.mpr hn]
  locals := by simp [innermostFrame, Table.rows_map, Table.rows_filter]
  once name hn := count_variable t f hn
  held := by
    rw [Frame.held, List.filterMap_append]
    refine ((perm_given t f vs).append ?_).trans
      (List.filter_append_perm (fun row => decide (row.1 ∈ t.params f.short)) vs.rows)
    simp [innermostFrame, Table.rows_map, Table.rows_filter]

theorem getLast?_stepFor (c : Collector) (r : Recording) : (c.stepFor r).stack.getLast? =
    (origins c.denylist r.context).getLast?.map fun f => innermostFrame c.signatures f r.bindings :=
  getLast?_buildStack _ _ _ _

/-- The last frame of a recorded stack holds the variables of the call and nothing else, shared out
by the declaration of its routine that came first. -/
theorem variables_share_out (c : Collector) (decls : List (String × List String))
    (r : Recording) :
    ∃ s, (({ c with signatures := .ofList decls } : Collector).take r).steps = c.steps ++ [s] ∧
      ∀ b, s.stack.getLast? = some b →
        SharesOut ((decls.lookup b.function).getD []) r.bindings b := by
  refine ⟨_, steps_take _ r, fun b hb => ?_⟩
  rw [getLast?_stepFor] at hb
  obtain ⟨f, -, rfl⟩ := Option.map_eq_some_iff.mp hb
  have hshares := sharesOut_innermostFrame (.ofList decls) f r.bindings
  rw [Signatures.params_ofList] at hshares
  exact hshares

/-- A variable that is declared, one that is not, a parameter that is declared twice and another one
that is not given. -/
theorem variables_share_out_sample :
    let r := sampleRecording [("y", .int 2), ("x", .int 1)] [("f", 3)]
    let decls := [("f", ["x", "z", "x"]), ("f", ["y"])]
    ∃ b, b.function = "f" ∧
      ((({ new .empty .empty with signatures := .ofList decls } : Collector).take r).steps.map
        fun s => s.stack.getLast?) = [some b] ∧
      b.parameters.keys = ["x", "z"] ∧ b.parameters.get? "x" = some (some (.int 1)) ∧
      b.parameters.get? "z" = some none ∧ b.locals.rows = [("y", some (.int 2))] ∧
      b.held.Perm [("y", .int 2), ("x", .int 1)] := by
  intro r decls
  obtain ⟨s, hs, hshares⟩ := variables_share_out (new .empty .empty) decls r
  have hlast : s.stack.getLast? =
      some ⟨"f", .ofRows [("x", some (.int 1)), ("z", none)], .ofRows [("y", some (.int 2))],
        some 3⟩ := by
    rw [steps_take] at hs
    rw [← List.singleton_inj.mp (List.append_cancel_left hs)]
    rfl
  have hx : ("x", Value.int 1) ∈ r.bindings.rows := .tail _ (.head _)
  have hb := hshares _ hlast
  refine ⟨_, rfl, ?_, hb.parameters.trans (by decide), hb.given "x" (.int 1) hx (by decide),
    hb.missing "z" (by decide) (by decide), hb.locals.trans rfl, hb.held⟩
  rw [hs]
  simp [hlast, new]

end Collector

end Retrace
