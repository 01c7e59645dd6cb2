import Retrace.Proofs.Table
import Retrace.Proofs.Trace.Run

/-! Where the values of the outer frames of a step come from. -/
namespace Retrace.Collector

variable {t : Signatures} {vs : Bindings} {shadow : List Frame} {fs : List RawFrame} {f : RawFrame}
  {b b' : Frame} {c : Collector} {rs : List Recording} {steps : List Step} {s s' : Step}
  {g : String} {p m n : Nat}

/-! ### The stack of a step -/

theorem length_buildStack : (buildStack t vs shadow fs).length = fs.length := by
  induction fs generalizing shadow with
  | nil => rfl
  | cons f fs ih =>
    cases fs with
    | nil => rfl
    | cons => simp only [buildStack, List.length_cons, ih]

/-- Every frame but the innermost one is made over the frame at its place in the stack before. -/
theorem getElem?_buildStack (hp : p + 1 < fs.length) : (buildStack t vs shadow fs)[p]? =
    fs[p]?.map (outerFrame t shadow[p]?) := by
  induction fs generalizing shadow p with
  | nil => simp at hp
  | cons f fs ih =>
    cases fs with
    | nil => simp at hp
    | cons f' fs =>
      rw [buildStack]
      · cases p with
        | zero => simp [List.head?_eq_getElem?]
        | succ p =>
          have h : (buildStack t vs shadow.tail (f' :: fs))[p]? = _ := ih (by simpa using hp)
          simpa using h
      · simp

theorem outerFrame_of_same (h : b'.function = f.short) :
    outerFrame t (some b') f = { b' with line := f.line } := by
  simp [outerFrame, h]

/-- Over no frame, or a frame of another routine, only the names of parameters are known. -/
theorem outerFrame_of_other {before : Option Frame}
    (h : ∀ b, before = some b → b.function ≠ f.short) :
    outerFrame t before f = .declared f.short (t.params f.short) f.line := by
  cases before with
  | none => rfl
  | some b => simp [outerFrame, h b rfl]

theorem function_outerFrame (t : Signatures) (before : Option Frame) (f : RawFrame) :
    (outerFrame t before f).function = f.short := by
  cases before with
  | none => rfl
  | some b =>
    by_cases h : b.function = f.short
    · rw [outerFrame_of_same h]
      exact h
    · simp [outerFrame, h, Frame.declared]

theorem line_outerFrame (t : Signatures) (before : Option Frame) (f : RawFrame) :
    (outerFrame t before f).line = f.line := by
  cases before with
  | none => rfl
  | some b => by_cases h : b.function = f.short <;> simp [outerFrame, h, Frame.declared]

/-- The frames of a call chain that are not left out, oldest first. -/
def chainFrames (d : Denylist) (k : CallContext) : List RawFrame :=
  ((k.chain.getD []).filter fun f => !d.denies f.symbol).reverse

/-- The site of a call says nothing about outer frames. -/
theorem getElem?_userFrames {d : Denylist} {k : CallContext}
    (hp : p + 1 < (userFrames d k).length) :
    (userFrames d k).reverse[p]? = (chainFrames d k)[p]? := by
  unfold userFrames chainFrames at *
  cases hk : k.site with
  | none => rfl
  | some site =>
    simp only [hk] at hp ⊢
    cases hf : (k.chain.getD []).filter fun f => !d.denies f.symbol with
    | nil => simp [hf] at hp
    | cons f rest =>
      simp only [hf] at hp ⊢
      split
      · have hlt : p < rest.reverse.length := by
          split at hp <;> simpa using hp
        rw [List.reverse_cons, List.reverse_cons, List.getElem?_append_left hlt,
          List.getElem?_append_left hlt]
      · rfl

/-! ### The step before -/

/-- The stack of the step before the `n`th one, empty before the first. -/
def stackBefore (steps : List Step) : Nat → List Frame
  | 0 => []
  | n + 1 => (steps[n]?.map Step.stack).getD []

/-- A collector without steps, new or started over. -/
def Initial (c : Collector) : Prop := (∃ d t, c = new d t) ∨ ∃ c', c = reset c'

theorem Initial.eq_new (h : Initial c) : c = new c.denylist c.signatures := by
  rcases h with ⟨d, t, rfl⟩ | ⟨c', rfl⟩
  · rfl
  · rfl

/-- The shadow of a run is the stack of its last step. -/
theorem shadow_run (h : Initial c) (rs : List Recording) :
    (c.run rs).shadow = stackBefore (c.run rs).steps rs.length := by
  rw [h.eq_new]
  induction rs using List.reverseRecOn with
  | nil => rfl
  | append_singleton rs r _ =>
    rw [run_append, List.length_append, List.length_singleton, stackBefore]
    have hlen := length_steps_run (new c.denylist c.signatures) rs
    simp only [new, List.length_nil, Nat.zero_add] at hlen
    have hstep : ((((new c.denylist c.signatures).run rs).run [r]).steps)[rs.length]? =
        some (((new c.denylist c.signatures).run rs).stepFor r) := by
      simp [run, steps_take, ← hlen, new]
    rw [hstep]
    rfl

theorem stackBefore_take (c : Collector) (rs : List Recording) (n : Nat) (hn : n ≤ rs.length) :
    stackBefore (c.run (rs.take n)).steps n = stackBefore (c.run rs).steps n := by
  cases n with
  | zero => rfl
  | succ n =>
    have hlen : n < (c.run (rs.take (n + 1))).steps.length := by
      rw [length_steps_run, List.length_take]
      omega
    have hsplit : c.run rs = (c.run (rs.take (n + 1))).run (rs.drop (n + 1)) := by
      rw [← run_append, List.take_append_drop]
    rw [stackBefore, stackBefore, hsplit, getElem?_steps_run_of_lt hlen]

/-- An outer frame is made of a frame of the call chain, over the frame at its place in the step
before. -/
theorem outer_frame_eq (h : Initial c) (hs : (c.run rs).steps[n]? = some s)
    (hp : p + 1 < s.stack.length) (hb : s.stack[p]? = some b) :
    ∃ r f, rs[n]? = some r ∧ (chainFrames c.denylist r.context)[p]? = some f ∧
      b = outerFrame c.signatures (stackBefore (c.run rs).steps n)[p]? f := by
  have hsteps : c.steps = [] := by rw [h.eq_new]; rfl
  have hget := getElem?_steps_run c rs n
  rw [hsteps, List.length_nil, Nat.zero_add, hs] at hget
  obtain ⟨r, hr, rfl⟩ := Option.map_eq_some_iff.mp hget.symm
  have hn : n < rs.length := (List.getElem?_eq_some_iff.mp hr).1
  have hstack : ((c.run (rs.take n)).stepFor r).stack = buildStack c.signatures r.bindings
      (stackBefore (c.run rs).steps n) (userFrames c.denylist r.context).reverse := by
    have hshadow := shadow_run h (rs.take n)
    rw [List.length_take, Nat.min_eq_left (Nat.le_of_lt hn),
      stackBefore_take c rs n (Nat.le_of_lt hn)] at hshadow
    rw [← hshadow, ← denylist_run c (rs.take n), ← signatures_run c (rs.take n)]
    rfl
  rw [hstack] at hp hb
  rw [length_buildStack] at hp
  rw [getElem?_buildStack hp, getElem?_userFrames (by simpa using hp)] at hb
  obtain ⟨f, hf, rfl⟩ := Option.map_eq_some_iff.mp hb
  exact ⟨r, f, hr, hf, rfl⟩

/-! ### The last step that recorded the values of an outer frame -/

/-- In step `n` the routine `g` is at the place `p`, under other frames. -/
def Covered (steps : List Step) (g : String) (p n : Nat) : Prop :=
  ∃ s b, steps[n]? = some s ∧ p + 1 < s.stack.length ∧ s.stack[p]? = some b ∧ b.function = g

/-- In step `n` the routine `g` is innermost at the place `p`, with the frame `b`. -/
def Innermost (steps : List Step) (g : String) (p n : Nat) (b : Frame) : Prop :=
  ∃ s, steps[n]? = some s ∧ s.stack.length = p + 1 ∧ s.stack.getLast? = some b ∧ b.function = g

/-- Before step `n`, step `m` was the last to record values of the routine `g` at the place `p`, and
`g` has stayed there since; `b` is its frame in step `m`. -/
structure LastRecorded (steps : List Step) (g : String) (p n m : Nat) (b : Frame) : Prop where
  earlier : m < n
  innermost : Innermost steps g p m b
  since : ∀ k, m < k → k < n → Covered steps g p k

/-- One step on, either the step itself has recorded the values, or it has covered the routine and
the values are those from before it. -/
theorem lastRecorded_succ_iff : LastRecorded steps g p (n + 1) m b ↔
    (m = n ∧ Innermost steps g p n b) ∨ (Covered steps g p n ∧ LastRecorded steps g p n m b) := by
  constructor
  · intro h
    by_cases hm : m = n
    · subst hm
      exact Or.inl ⟨rfl, h.innermost⟩
    · have hlt : m < n := by have := h.earlier; omega
      exact Or.inr ⟨h.since n hlt (Nat.lt_succ_self n), hlt, h.innermost,
        fun k hmk hkn => h.since k hmk (Nat.lt_succ_of_lt hkn)⟩
  · rintro (⟨rfl, hi⟩ | ⟨hc, h⟩)
    · exact ⟨Nat.lt_succ_self m, hi, fun k hmk hkm => by omega⟩
    · refine ⟨Nat.lt_succ_of_lt h.earlier, h.innermost, fun k hmk hkn => ?_⟩
      by_cases hk : k = n
      · subst hk
        exact hc
      · exact h.since k hmk (by omega)

theorem stackBefore_succ (hs : steps[n]? = some s) : stackBefore steps (n + 1) = s.stack := by
  simp [stackBefore, hs]

theorem exists_of_stackBefore (h : (stackBefore steps n)[p]? = some b) :
    ∃ k s, n = k + 1 ∧ steps[k]? = some s ∧ s.stack[p]? = some b := by
  cases n with
  | zero => simp [stackBefore] at h
  | succ k =>
    cases hs : steps[k]? with
    | none => simp [stackBefore, hs] at h
    | some s => exact ⟨k, s, rfl, hs, by rwa [stackBefore_succ hs] at h⟩

theorem Innermost.getElem? (h : Innermost steps g p n b) :
    (stackBefore steps (n + 1))[p]? = some b ∧ b.function = g := by
  obtain ⟨s, hs, hlen, hlast, hg⟩ := h
  rw [stackBefore_succ hs]
  rw [List.getLast?_eq_getElem?, hlen] at hlast
  exact ⟨hlast, hg⟩

/-- A step either records the values of a routine at its place or covers the routine there. -/
theorem innermost_or_covered (hs : steps[n]? = some s) (hb : s.stack[p]? = some b)
    (hg : b.function = g) : Innermost steps g p n b ∨
      (p + 1 < s.stack.length ∧ Covered steps g p n) := by
  have hp : p < s.stack.length := (List.getElem?_eq_some_iff.mp hb).1
  by_cases hlen : s.stack.length = p + 1
  · exact Or.inl ⟨s, hs, hlen, by rw [List.getLast?_eq_getElem?, hlen]; exact hb, hg⟩
  · have hlt : p + 1 < s.stack.length := by omega
    exact Or.inr ⟨hlt, s, b, hs, hlt, hb, hg⟩

/-- The values of an outer frame are those that were recorded last. -/
theorem values_of_lastRecorded (h : Initial c) (hs : (c.run rs).steps[n]? = some s)
    (hp : p + 1 < s.stack.length) (hb : s.stack[p]? = some b)
    (hr : LastRecorded (c.run rs).steps b.function p n m b') :
    b.parameters = b'.parameters ∧ b.locals = b'.locals := by
  induction n generalizing s b with
  | zero => exact absurd hr.earlier (Nat.not_lt_zero m)
  | succ n ih =>
    obtain ⟨_, f, -, -, rfl⟩ := outer_frame_eq h hs hp hb
    rw [function_outerFrame] at hr
    rcases lastRecorded_succ_iff.mp hr with ⟨rfl, hi⟩ | ⟨⟨s', b'', hs', hp', hb', hf⟩, hr'⟩
    · rw [hi.getElem?.1, outerFrame_of_same hi.getElem?.2]
      exact ⟨rfl, rfl⟩
    · have hvalues := ih hs' hp' hb' (hf ▸ hr')
      rw [stackBefore_succ hs', hb', outerFrame_of_same hf]
      exact hvalues

/-- Without a step that recorded values of its routine, an outer frame has none: of its parameters
only the names are known. -/
theorem values_of_none_recorded (h : Initial c) (hs : (c.run rs).steps[n]? = some s)
    (hp : p + 1 < s.stack.length) (hb : s.stack[p]? = some b)
    (hr : ¬ ∃ m b', LastRecorded (c.run rs).steps b.function p n m b') :
    b.parameters = .ofRows ((c.signatures.params b.function).map fun name => (name, none)) ∧
      b.locals = .empty := by
  induction n using Nat.strongRecOn generalizing s b with
  | ind n ih =>
    obtain ⟨_, f, -, -, rfl⟩ := outer_frame_eq h hs hp hb
    rw [function_outerFrame] at hr
    by_cases hsame : ∃ b'', (stackBefore (c.run rs).steps n)[p]? = some b'' ∧ b''.function = f.short
    · obtain ⟨b'', hb'', hf⟩ := hsame
      obtain ⟨k, s', rfl, hs', hk⟩ := exists_of_stackBefore hb''
      rcases innermost_or_covered hs' hk hf with hi | ⟨hp', hcov⟩
      · exact absurd ⟨k, b'', lastRecorded_succ_iff.mpr (Or.inl ⟨rfl, hi⟩)⟩ hr
      · have hnone : ¬ ∃ m b', LastRecorded (c.run rs).steps b''.function p k m b' := by
          rintro ⟨m, b', hm⟩
          exact hr ⟨m, b', lastRecorded_succ_iff.mpr (Or.inr ⟨hcov, hf ▸ hm⟩)⟩
        have hvalues := ih k (Nat.lt_succ_self k) hs' hp' hk hnone
        rw [hb'', function_outerFrame, outerFrame_of_same hf]
        rw [hf] at hvalues
        exact hvalues
    · have hother : ∀ b, (stackBefore (c.run rs).steps n)[p]? = some b → b.function ≠ f.short :=
        fun b hb hf => hsame ⟨b, hb, hf⟩
      rw [function_outerFrame, outerFrame_of_other hother]
      exact ⟨rfl, rfl⟩

/-- An outer frame shows the values that were recorded when its routine was last innermost at its
place, provided that the routine has stayed there since; otherwise it shows the names of the
declared parameters and nothing else. Its routine and its line are those of the call chain. -/
theorem outer_frame_provenance (h : Initial c) (hs : (c.run rs).steps[n]? = some s)
    (hp : p + 1 < s.stack.length) (hb : s.stack[p]? = some b) :
    (∀ m b', LastRecorded (c.run rs).steps b.function p n m b' →
      b.parameters = b'.parameters ∧ b.locals = b'.locals) ∧
    ((¬ ∃ m b', LastRecorded (c.run rs).steps b.function p n m b') →
      b.parameters.rows = (c.signatures.params b.function).eraseDups.map (fun name => (name, none)) ∧
        b.locals.rows = []) ∧
    ∃ r f, rs[n]? = some r ∧ (chainFrames c.denylist r.context)[p]? = some f ∧
      b.function = f.short ∧ b.line = f.line := by
  refine ⟨fun m b' hr => values_of_lastRecorded h hs hp hb hr, fun hr => ?_, ?_⟩
  · obtain ⟨hparams, hlocals⟩ := values_of_none_recorded h hs hp hb hr
    rw [hparams, hlocals, Table.rows_ofRows_const]
    exact ⟨rfl, rfl⟩
  · obtain ⟨r, f, hrn, hf, rfl⟩ := outer_frame_eq h hs hp hb
    exact ⟨r, f, hrn, hf, function_outerFrame _ _ _, line_outerFrame _ _ _⟩

/-- A recording in routines given by name, innermost first, with the lines they stand in. -/
def sampleRecording (vs : List (String × Value)) (frames : List (String × Nat)) : Recording :=
  { action := "visit", details := "", bindings := .ofRows vs
    context := ⟨some (frames.map fun f => ⟨f.1, none, some f.2⟩), none⟩ }

/-- Recordings of `f`, then of `g` called from `f`, twice. -/
def sampleRecordings : List Recording :=
  [sampleRecording [("x", .int 1), ("y", .int 2)] [("f", 3)],
    sampleRecording [] [("g", 10), ("f", 4)], sampleRecording [] [("g", 11), ("f", 5)]]

def sampleSteps : List Step := ((new .empty (.ofList [("f", ["x"])])).run sampleRecordings).steps

/-- In the last sample step the frame of `f` has the values of the first one, and a line of its
own. -/
theorem outer_frame_provenance_sample : ∃ s b, sampleSteps[2]? = some s ∧ 0 + 1 < s.stack.length ∧
    s.stack[0]? = some b ∧ b.function = "f" ∧ b.parameters.rows = [("x", some (.int 1))] ∧
    b.locals.rows = [("y", some (.int 2))] ∧ b.line = some 5 := by
  have hcovered : ∀ k, 0 < k → k < 2 → Covered sampleSteps "f" 0 k := by
    intro k h0 h2
    obtain rfl : k = 1 := by omega
    exact ⟨_, _, rfl, by decide, rfl, rfl⟩
  have hr : LastRecorded sampleSteps "f" 0 2 0
      ⟨"f", .ofRows [("x", some (.int 1))], .ofRows [("y", some (.int 2))], some 3⟩ :=
    ⟨by decide, ⟨_, rfl, rfl, rfl, rfl⟩, hcovered⟩
  have hi : Initial (new .empty (.ofList [("f", ["x"])])) := Or.inl ⟨_, _, rfl⟩
  obtain ⟨s, hs⟩ : ∃ s, sampleSteps[2]? = some s := ⟨_, rfl⟩
  obtain ⟨b, hb, hp, hf⟩ : ∃ b, s.stack[0]? = some b ∧ 0 + 1 < s.stack.length ∧
      b.function = "f" := by
    obtain rfl := Option.some.inj hs
    exact ⟨_, rfl, by decide, rfl⟩
  obtain ⟨hvalues, -, r, f, hn, hc, -, hl⟩ := outer_frame_provenance hi hs hp hb
  obtain ⟨hparams, hlocals⟩ := hvalues 0 _ (hf ▸ hr)
  refine ⟨s, b, hs, hp, hb, hf, by rw [hparams]; rfl, by rw [hlocals]; rfl, ?_⟩
  obtain rfl := Option.some.inj hn
  obtain rfl := Option.some.inj hc
  exact hl

end Retrace.Collector
