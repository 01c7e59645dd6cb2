import Retrace.Proofs.Trace.Provenance

/-! Where the frames of a recorded call stack come from: from the frames of the call chain that are
not left out, or, when none of them is kept, from the call site alone. -/
namespace Retrace.Collector

variable {c : Collector} {d : Denylist} {t : Signatures} {k : CallContext} {vs : Bindings}
  {shadow : List Frame} {fs : List RawFrame} {f site : RawFrame} {b : Frame}

/-- The frame of a stack was made from a frame of a call chain, or from a call site: it names the
routine and the line of that. -/
structure MadeFrom (f : RawFrame) (b : Frame) : Prop where
  function : b.function = f.short
  line : b.line = f.line

/-- What the stack of a step is made from, oldest first. -/
def origins (d : Denylist) (k : CallContext) : List RawFrame := (userFrames d k).reverse

theorem madeFrom_outerFrame (t : Signatures) (before : Option Frame) (f : RawFrame) :
    MadeFrom f (outerFrame t before f) :=
  ⟨function_outerFrame t before f, line_outerFrame t before f⟩

theorem madeFrom_innermostFrame (t : Signatures) (f : RawFrame) (vs : Bindings) :
    MadeFrom f (innermostFrame t f vs) :=
  ⟨rfl, rfl⟩

/-- A stack has one frame for each that it is made from, in the same order. -/
theorem madeFrom_buildStack (t : Signatures) (vs : Bindings) (shadow : List Frame)
    (fs : List RawFrame) : List.Forall₂ MadeFrom fs (buildStack t vs shadow fs) := by
  induction fs generalizing shadow with
  | nil => exact .nil
  | cons f fs ih =>
    cases fs with
    | nil => exact .cons (madeFrom_innermostFrame t f vs) .nil
    | cons f' fs =>
      have hrest := ih shadow.tail
      exact .cons (madeFrom_outerFrame t shadow.head? f) hrest

/-- The frame that comes last in a stack has the values of the call. -/
theorem getLast?_buildStack (t : Signatures) (vs : Bindings) (shadow : List Frame)
    (fs : List RawFrame) :
    (buildStack t vs shadow fs).getLast? = fs.getLast?.map fun f => innermostFrame t f vs := by
  induction fs generalizing shadow with
  | nil => rfl
  | cons f fs ih =>
    cases fs with
    | nil => rfl
    | cons f' fs =>
      rw [buildStack, List.getLast?_cons, ih shadow.tail, List.getLast?_cons_cons]
      · simp [List.getLast?_cons]
      · simp

/-! ### The call chain and the call site -/

theorem origins_of_no_site (h : k.site = none) : origins d k = chainFrames d k := by
  simp [origins, chainFrames, userFrames, h]

/-- When nothing of the chain is kept, the site of the call stands for it. -/
theorem origins_of_no_chain (h : chainFrames d k = []) : origins d k = k.site.toList := by
  have hf : ((k.chain.getD []).filter fun f => !d.denies f.symbol) = [] := by
    simpa [chainFrames] using h
  cases hk : k.site with
  | none => simp [origins, userFrames, hk, hf]
  | some site => simp [origins, userFrames, hk, hf]

/-- When something of the chain is kept, the site of the call adds no symbol. -/
theorem map_symbol_origins (h : chainFrames d k ≠ []) :
    (origins d k).map RawFrame.symbol = (chainFrames d k).map RawFrame.symbol := by
  cases hk : k.site with
  | none => rw [origins_of_no_site hk]
  | some site =>
    cases hf : (k.chain.getD []).filter fun f => !d.denies f.symbol with
    | nil => exact absurd (by simp [chainFrames, hf]) h
    | cons f rest =>
      by_cases hs : site.short = f.short <;> simp [origins, chainFrames, userFrames, hk, hf, hs]

theorem mem_chainFrames :
    f ∈ chainFrames d k ↔ f ∈ k.chain.getD [] ∧ d.denies f.symbol = false := by
  simp [chainFrames]

/-- Nothing of a chain is kept exactly if all of it is denied. -/
theorem chainFrames_eq_nil_iff :
    chainFrames d k = [] ↔ ∀ f ∈ k.chain.getD [], d.denies f.symbol = true := by
  simp [chainFrames]

/-- A denied symbol is among the origins of a stack exactly if it is the one of the call site, and
all of the chain is denied too. -/
theorem exists_denied_origin_iff : (∃ f ∈ origins d k, d.denies f.symbol = true) ↔
    (∃ site, k.site = some site ∧ d.denies site.symbol = true) ∧
      ∀ f ∈ k.chain.getD [], d.denies f.symbol = true := by
  rw [← chainFrames_eq_nil_iff]
  constructor
  · rintro ⟨f, hf, hd⟩
    by_cases h : chainFrames d k = []
    · rw [origins_of_no_chain h] at hf
      exact ⟨⟨f, Option.mem_toList.mp hf, hd⟩, h⟩
    · have hm : f.symbol ∈ (chainFrames d k).map RawFrame.symbol := by
        rw [← map_symbol_origins h]
        exact List.mem_map_of_mem hf
      obtain ⟨f', hf', hs⟩ := List.mem_map.mp hm
      rw [← hs, (mem_chainFrames.mp hf').2] at hd
      cases hd
  · rintro ⟨⟨site, hk, hd⟩, h⟩
    refine ⟨site, ?_, hd⟩
    rw [origins_of_no_chain h]
    exact Option.mem_toList.mpr hk

/-- The stack of a recorded step is made, frame by frame, from the frames of the call chain that are
not denied, or from the call site if all of the chain is. So a denied symbol comes onto the stack in
one case only: it is the one of the call site, and nothing of the chain is left. -/
theorem denied_on_stack_iff (c : Collector) (r : Recording) :
    ∃ s, (c.take r).steps = c.steps ++ [s] ∧
      List.Forall₂ MadeFrom (origins c.denylist r.context) s.stack ∧
      ((origins c.denylist r.context).map RawFrame.symbol =
          (chainFrames c.denylist r.context).map RawFrame.symbol ∨
        (chainFrames c.denylist r.context = [] ∧
          origins c.denylist r.context = r.context.site.toList)) ∧
      ((∃ f ∈ origins c.denylist r.context, c.denylist.denies f.symbol = true) ↔
        (∃ site, r.context.site = some site ∧ c.denylist.denies site.symbol = true) ∧
          ∀ f ∈ r.context.chain.getD [], c.denylist.denies f.symbol = true) := by
  refine ⟨c.stepFor r, steps_take c r, madeFrom_buildStack _ _ _ _, ?_, exists_denied_origin_iff⟩
  by_cases h : chainFrames c.denylist r.context = []
  · exact Or.inr ⟨h, origins_of_no_chain h⟩
  · exact Or.inl (map_symbol_origins h)

/-- A recording of a call in an implementation of a trait that is left out. -/
def sampleDenied (chain : Option (List RawFrame)) : Recording :=
  { action := "visit", details := "", bindings := .ofRows [("x", .int 1)]
    context := ⟨chain, some ⟨"<snippet::Walk as core::Iterator>::next", none, some 7⟩⟩ }

example : ((new .default .empty).stepFor (sampleDenied none)).stack.map Frame.function =
    ["next"] := by decide

/-! ### The routine of a step -/

/-- The innermost frame is the one of the chain that is innermost, or else the call site. -/
theorem short_getLast?_origins (d : Denylist) (k : CallContext) :
    (origins d k).getLast?.map RawFrame.short =
      ((chainFrames d k).getLast?.or k.site).map RawFrame.short := by
  have hsymbols (fs : List RawFrame) : fs.getLast?.map RawFrame.short =
      ((fs.map RawFrame.symbol).getLast?).map fun s => String.ofList (Symbol.short s.toList) := by
    rw [List.getLast?_map, Option.map_map]
    rfl
  by_cases h : chainFrames d k = []
  · rw [origins_of_no_chain h, h]
    cases k.site <;> rfl
  · rw [hsymbols, map_symbol_origins h, ← hsymbols]
    cases hl : (chainFrames d k).getLast? with
    | none => exact absurd (List.getLast?_eq_none_iff.mp hl) h
    | some f => rfl

/-- A step names the routine of the call site, or else that of the innermost frame. -/
theorem function_stepFor (c : Collector) (r : Recording) : (c.stepFor r).function =
    ((r.context.site.or (chainFrames c.denylist r.context).getLast?).map RawFrame.short).getD
      "unknown" := by
  have hcaller : (c.stepFor r).function =
      (caller r.context (userFrames c.denylist r.context)).1 := rfl
  rw [hcaller]
  cases hk : r.context.site with
  | some site => simp [caller, hk]
  | none =>
    have hframes := origins_of_no_site (d := c.denylist) hk
    rw [← hframes, origins, List.getLast?_reverse]
    cases userFrames c.denylist r.context <;> simp [caller, hk]

/-- The innermost frame of the chain and the call site come in one order for the stack and in the
other for the name of the step, which makes a difference when both are there. -/
theorem agrees_iff {last : Option Frame} {site inner : Option RawFrame}
    (h : last.map Frame.function = (inner.or site).map RawFrame.short) :
    (∀ b, last = some b → b.function = ((site.or inner).map RawFrame.short).getD "unknown") ↔
      ∀ s f, site = some s → inner = some f → f.short = s.short := by
  constructor
  · rintro hb s f rfl rfl
    obtain ⟨b, hl, hf⟩ := Option.map_eq_some_iff.mp h
    exact hf.symm.trans (hb b hl)
  · rintro heq b rfl
    cases site with
    | none =>
      cases inner with
      | none => cases h
      | some f => exact Option.some.inj h
    | some s =>
      cases inner with
      | none => exact Option.some.inj h
      | some f => exact (Option.some.inj h).trans (heq s f rfl rfl)

/-- The innermost frame of a stack receives the variables of the call. It belongs to the innermost
routine of the chain that is not denied, and to the call site only if there is none, while the step
names the routine of the call site whenever there is one. So both name the same routine exactly if
the call site and the innermost frame that is kept do, as far as both are there. -/
theorem innermost_function_iff (c : Collector) (r : Recording) :
    ∃ s, (c.take r).steps = c.steps ++ [s] ∧
      (s.stack.getLast? = (origins c.denylist r.context).getLast?.map fun f =>
        innermostFrame c.signatures f r.bindings) ∧
      (s.stack.getLast?.map Frame.function =
        ((chainFrames c.denylist r.context).getLast?.or r.context.site).map RawFrame.short) ∧
      (s.function =
        ((r.context.site.or (chainFrames c.denylist r.context).getLast?).map RawFrame.short).getD
          "unknown") ∧
      ((∀ b, s.stack.getLast? = some b → b.function = s.function) ↔
        ∀ site f, r.context.site = some site →
          (chainFrames c.denylist r.context).getLast? = some f → f.short = site.short) := by
  have hlast : (c.stepFor r).stack.getLast? = (origins c.denylist r.context).getLast?.map fun f =>
      innermostFrame c.signatures f r.bindings := getLast?_buildStack _ _ _ _
  have hname : (c.stepFor r).stack.getLast?.map Frame.function =
      ((chainFrames c.denylist r.context).getLast?.or r.context.site).map RawFrame.short := by
    rw [hlast, Option.map_map, ← short_getLast?_origins]
    rfl
  refine ⟨c.stepFor r, steps_take c r, hlast, hname, function_stepFor c r, ?_⟩
  rw [function_stepFor c r]
  exact agrees_iff hname

example :
    let s := (new .default .empty).stepFor (sampleDenied (some [⟨"snippet::main", none, none⟩]))
    s.function = "next" ∧ s.stack.map Frame.function = ["main"] := by decide

end Retrace.Collector
