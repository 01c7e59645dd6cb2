import Mathlib.Tactic.ByContra
import Retrace.Run.Toolchain

/-! Which errors a failed build of a program reports. If the compiler fails without a diagnostic, what
it wrote is taken for an error; if it writes diagnostics, there is an error only if one of them is
an error. -/
namespace Retrace

open Text

variable {o : CompilerOutput} {d : Diagnostic} {f : BuildFailure} {m : CompilerMessage}

namespace CompilerOutput

/-- One of the diagnostics of the compiler is the message on a line. -/
def Writes (o : CompilerOutput) (m : CompilerMessage) : Prop :=
  ∃ line ∈ lines o.stderr, CompilerMessage.ofLine? line = some m ∧ m.isDiagnostic = true

theorem mem_diagnostics : d ∈ o.diagnostics ↔ ∃ m, o.Writes m ∧ m.diagnostic = d := by
  simp only [diagnostics, Retrace.diagnostics, List.mem_map, List.mem_filter, List.mem_filterMap]
  constructor
  · rintro ⟨m, ⟨⟨line, hline, hm⟩, hd⟩, rfl⟩
    exact ⟨m, ⟨line, hline, hm, hd⟩, rfl⟩
  · rintro ⟨m, ⟨line, hline, hm, hd⟩, rfl⟩
    exact ⟨m, ⟨⟨line, hline, hm⟩, hd⟩, rfl⟩

theorem forall_diagnostics {P : Diagnostic → Prop} :
    (∀ d ∈ o.diagnostics, P d) ↔ ∀ m, o.Writes m → P m.diagnostic := by
  constructor
  · intro h m hm
    exact h _ (mem_diagnostics.mpr ⟨m, hm, rfl⟩)
  · intro h d hd
    obtain ⟨m, hm, rfl⟩ := mem_diagnostics.mp hd
    exact h m hm

theorem diagnostics_eq_nil_iff : o.diagnostics = [] ↔ ¬∃ m, o.Writes m := by
  simp only [List.eq_nil_iff_forall_not_mem, mem_diagnostics, not_exists, not_and]
  exact ⟨fun h m hm => h _ m hm rfl, fun h _ m hm _ => h m hm⟩

/-- A compiler fails by the way it ends or by an error among its diagnostics. -/
theorem failed_eq_true_iff : o.failed = true ↔
    o.exit.isSuccess = false ∨ ∃ m, o.Writes m ∧ m.diagnostic.isError = true := by
  rw [failed, Bool.or_eq_true, Bool.not_eq_true', List.any_eq_true]
  refine or_congr_right ⟨?_, ?_⟩
  · rintro ⟨d, hd, he⟩
    obtain ⟨m, hm, rfl⟩ := mem_diagnostics.mp hd
    exact ⟨m, hm, he⟩
  · rintro ⟨m, hm, he⟩
    exact ⟨_, mem_diagnostics.mpr ⟨m, hm, rfl⟩, he⟩

theorem isError_fallback (o : CompilerOutput) : o.fallback.isError = true := by
  have hlevel : o.fallback.level = "error" := rfl
  rw [Diagnostic.isError, hlevel]
  decide

theorem programFailure?_eq_some_iff : o.programFailure? = some f ↔
    o.failed = true ∧ f = ⟨if o.diagnostics.isEmpty then [o.fallback] else o.diagnostics⟩ := by
  rw [programFailure?]
  split
  · rename_i hf
    rw [Option.some_inj, and_iff_right hf, eq_comm]
  · rename_i hf
    simp [hf]

theorem errors_of_silent (h : ¬∃ m, o.Writes m) (hf : o.programFailure? = some f) :
    f.errors = [o.fallback] := by
  obtain ⟨-, rfl⟩ := programFailure?_eq_some_iff.mp hf
  simp [BuildFailure.errors, diagnostics_eq_nil_iff.mpr h, isError_fallback]

theorem errors_of_writes (h : ∃ m, o.Writes m) (hf : o.programFailure? = some f) :
    f.errors = o.diagnostics.filter Diagnostic.isError := by
  obtain ⟨-, rfl⟩ := programFailure?_eq_some_iff.mp hf
  have hne : o.diagnostics ≠ [] := fun hnil => diagnostics_eq_nil_iff.mp hnil h
  simp [BuildFailure.errors, hne]

/-- A failed build reports no error just if the compiler ended without success after diagnostics
none of which is an error. -/
theorem programFailure?_without_errors_iff :
    (∃ f, o.programFailure? = some f ∧ f.errors = []) ↔ o.exit.isSuccess = false ∧
      (∃ m, o.Writes m) ∧ ∀ m, o.Writes m → m.diagnostic.isError = false := by
  have hnone : o.diagnostics.filter Diagnostic.isError = [] ↔
      ∀ m, o.Writes m → m.diagnostic.isError = false := by
    rw [List.filter_eq_nil_iff, forall_diagnostics]
    simp
  constructor
  · rintro ⟨f, hf, hempty⟩
    by_cases hw : ∃ m, o.Writes m
    · rw [errors_of_writes hw hf, hnone] at hempty
      refine ⟨?_, hw, hempty⟩
      rcases failed_eq_true_iff.mp (programFailure?_eq_some_iff.mp hf).1 with hexit | ⟨m, hm, he⟩
      · exact hexit
      · rw [hempty m hm] at he
        cases he
    · rw [errors_of_silent hw hf] at hempty
      cases hempty
  · rintro ⟨hexit, hw, hclean⟩
    have hf := programFailure?_eq_some_iff.mpr ⟨failed_eq_true_iff.mpr (Or.inl hexit), rfl⟩
    refine ⟨_, hf, ?_⟩
    rw [errors_of_writes hw hf, hnone]
    exact hclean

end CompilerOutput

/-- A build of a program fails as the output of the compiler says, if there is a compiler. -/
theorem Toolchain.ofCompiler_eq_build_iff (compile : Compiler)
    (compiler edition source output : String) (links : List (String × String)) (folder : Folder) :
    (ofCompiler compile compiler edition (.program source output links) folder).1 =
        .error (.build f) ↔
      ∃ o left, compile ⟨compiler, edition, .program source output links⟩ folder = .ok (o, left) ∧
        o.programFailure? = some f := by
  unfold ofCompiler
  cases compile ⟨compiler, edition, .program source output links⟩ folder with
  | error e => simp
  | ok r =>
    obtain ⟨o, left⟩ := r
    cases hf : o.programFailure? with
    | none => simp [BuildTask.judge, hf]
    | some g => simp [BuildTask.judge, hf]

/-- A build of a program that fails for what the compiler said reports an error, with one exception:
the compiler ended without success, and wrote diagnostics, but no error. A compiler that fails
without any diagnostic is reported with one error, for which what it wrote or how it ended stands. -/
theorem build_without_errors_iff (compile : Compiler) (compiler edition source output : String)
    (links : List (String × String)) (folder : Folder) :
    ((∃ f, (Toolchain.ofCompiler compile compiler edition (.program source output links) folder).1 =
          .error (.build f) ∧ f.errors = []) ↔
      ∃ o left, compile ⟨compiler, edition, .program source output links⟩ folder = .ok (o, left) ∧
        o.exit.isSuccess = false ∧ (∃ m, o.Writes m) ∧
        ∀ m, o.Writes m → m.diagnostic.isError = false) ∧
    ∀ o left f, compile ⟨compiler, edition, .program source output links⟩ folder = .ok (o, left) →
      (¬∃ m, o.Writes m) →
      (Toolchain.ofCompiler compile compiler edition (.program source output links) folder).1 =
        .error (.build f) → f.errors = [o.fallback] := by
  refine ⟨?_, fun o left f ho hsilent hf => ?_⟩
  · simp only [Toolchain.ofCompiler_eq_build_iff, ← CompilerOutput.programFailure?_without_errors_iff]
    constructor
    · rintro ⟨f, ⟨o, left, ho, hf⟩, hnone⟩
      exact ⟨o, left, ho, f, hf, hnone⟩
    · rintro ⟨o, left, ho, f, hf, hnone⟩
      exact ⟨f, ⟨o, left, ho, hf⟩, hnone⟩
  · obtain ⟨o', left', ho', hf⟩ := (Toolchain.ofCompiler_eq_build_iff ..).mp hf
    obtain ⟨rfl, -⟩ := Prod.mk.inj (Except.ok.inj (ho.symm.trans ho'))
    exact CompilerOutput.errors_of_silent hsilent hf

/-- What a compiler leaves that stops after a warning. -/
def sampleWarned : CompilerOutput :=
  ⟨.code 1, "\x7b\"message\":\"m\",\"level\":\"warning\"\x7d".toList⟩

/-- What a compiler leaves that is killed before it writes anything. -/
def sampleKilled : CompilerOutput := ⟨.signal 9 false, []⟩

/-- The build of a program by a compiler that always leaves the same output. -/
def sampleBuild (o : CompilerOutput) : Except TraceError String :=
  (Toolchain.ofCompiler (fun _ folder => .ok (o, folder)) "rustc" "2021"
    (.program "Unit.rs" "Unit" []) []).1

/-- The compiler that stopped after a warning is reported without an error, the one that was killed
with one. -/
theorem build_without_errors_sample :
    (∃ f, sampleBuild sampleWarned = .error (.build f) ∧ f.errors = []) ∧
      ∃ f, sampleBuild sampleKilled = .error (.build f) ∧
        f.errors.map Diagnostic.message = ["rustc exited with signal: 9 (SIGKILL)"] := by
  have hwarned : sampleWarned.diagnostics = [⟨"warning", "m", none, none, "warning: m"⟩] := by
    decide +kernel
  have hkilled : sampleKilled.diagnostics = [] := by decide +kernel
  have hmessage : sampleKilled.fallback.message = "rustc exited with signal: 9 (SIGKILL)" := by
    decide +kernel
  obtain ⟨hiff, -⟩ := build_without_errors_iff (fun _ folder => .ok (sampleWarned, folder))
    "rustc" "2021" "Unit.rs" "Unit" [] []
  obtain ⟨-, hsilent⟩ := build_without_errors_iff (fun _ folder => .ok (sampleKilled, folder))
    "rustc" "2021" "Unit.rs" "Unit" [] []
  constructor
  · have hw : ∃ m, sampleWarned.Writes m := by
      by_contra hn
      rw [← CompilerOutput.diagnostics_eq_nil_iff, hwarned] at hn
      cases hn
    have hclean : ∀ m, sampleWarned.Writes m → m.diagnostic.isError = false := by
      intro m hm
      have hd := CompilerOutput.mem_diagnostics.mpr ⟨m, hm, rfl⟩
      rw [hwarned, List.mem_singleton] at hd
      rw [hd]
      decide
    exact hiff.mpr ⟨sampleWarned, [], rfl, rfl, hw, hclean⟩
  · have hn : ¬∃ m, sampleKilled.Writes m := CompilerOutput.diagnostics_eq_nil_iff.mp hkilled
    have hfailure : sampleKilled.programFailure? = some ⟨[sampleKilled.fallback]⟩ := by
      rw [CompilerOutput.programFailure?_eq_some_iff, hkilled]
      exact ⟨CompilerOutput.failed_eq_true_iff.mpr (Or.inl rfl), rfl⟩
    have hf : sampleBuild sampleKilled = .error (.build ⟨[sampleKilled.fallback]⟩) :=
      (Toolchain.ofCompiler_eq_build_iff ..).mpr ⟨sampleKilled, [], rfl, hfailure⟩
    refine ⟨_, hf, ?_⟩
    rw [hsilent _ _ _ rfl hn hf, List.map_singleton, hmessage]

end Retrace
