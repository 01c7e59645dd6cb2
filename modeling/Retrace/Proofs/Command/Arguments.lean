import Retrace.Command.Basic
import Retrace.Proofs.Number.Numerals

/-! Numbers on a command line are read as they are written, and the command lines for graphs and
traces give the commands for them. -/
namespace Retrace

open Text

/-- The name of a file that is not taken for an option. -/
structure Operand (file : String) : Prop where
  form : Argument.ofString file = .file file
  named : file ≠ ""

instance (file : String) : Decidable (Operand file) :=
  decidable_of_iff (Argument.ofString file = .file file ∧ file ≠ "")
    ⟨fun h => ⟨h.1, h.2⟩, fun h => ⟨h.form, h.named⟩⟩

/-- A number is no option. -/
theorem Argument.ofString_toString (n : Nat) :
    Argument.ofString (toString n) = .file (toString n) := by
  obtain ⟨c, s, hcs, hc⟩ := Number.exists_cons_toDigits n
  have hminus : c ≠ '-' := by rintro rfl; exact absurd hc (by decide)
  have htext : (toString n).toList = c :: s := by rw [Nat.toString_eq_repr, Nat.toList_repr, hcs]
  unfold Argument.ofString
  rw [htext]
  split <;> simp_all

namespace Given

variable {flags : List Flag} {flag : Flag} {g : Given} {rest : List String} {file : String}

/-- The name of an option that takes a value lets the next argument be the value. -/
theorem scan_awaiting {arg value : String} (name : String)
    (ha : Argument.ofString arg = .long name none)
    (hf : flags.find? (fun f => f.long == name) = some flag) (hv : flag.value = some value) :
    scan flags g none (arg :: rest) = scan flags g (some flag) rest := by
  rw [scan]
  simp only [ha, hf, take, hv]
  rfl

theorem addOption_new {name : String} (hg : g.options.lookup name = none) (value : Option Nat) :
    g.addOption name value = .ok { g with options := g.options ++ [(name, value)] } := by
  rw [addOption, hg]
  rfl

/-- The name of an option without a value adds the option. -/
theorem scan_switch {arg : String} (name : String) (ha : Argument.ofString arg = .long name none)
    (hf : flags.find? (fun f => f.long == name) = some flag) (hv : flag.value = none)
    (hh : flag ≠ .help) (hg : g.options.lookup flag.long = none) :
    scan flags g none (arg :: rest) =
      scan flags { g with options := g.options ++ [(flag.long, none)] } none rest := by
  rw [scan]
  simp only [ha, hf, take, hv, if_neg hh, addOption_new hg]
  rfl

/-- A number is taken for the value of the option before it. -/
theorem scan_number {n : Nat} (hn : n ≤ 0xFFFFFFFFFFFFFFFF)
    (hg : g.options.lookup flag.long = none) :
    scan flags g (some flag) (toString n :: rest) =
      scan flags { g with options := g.options ++ [(flag.long, some n)] } none rest := by
  have hread : Number.readInt? 0 0xFFFFFFFFFFFFFFFF (toString n).toList = some (n : Int) :=
    Number.readInt?_toString hn
  have hvalue : g.addValue flag.long (toString n) = g.addOption flag.long (some n) := by
    rw [addValue, hread]
    rfl
  rw [scan, if_pos (Argument.ofString_toString n), hvalue, addOption_new hg]
  rfl

/-- A file is noted if there is none yet. -/
theorem scan_file (hf : Operand file) (hg : g.file = none) :
    scan flags g none (file :: rest) = scan flags { g with file := some file } none rest := by
  have hadd : g.addFile file = .ok { g with file := some file } := by
    simp [addFile, hf.named, hg]
  rw [scan]
  simp only [hf.form, hadd]
  rfl

end Given

namespace Command

variable {file : String} {n : Nat}

theorem read?_graph (hf : Operand file) (hn : n ≤ 0xFFFFFFFFFFFFFFFF) :
    read? ["graph", "--max-depth", toString n, file] = some (.graph file n false) := by
  have hscan : Given.read Usage.graph.flags ["--max-depth", toString n, file] =
      .ok ⟨some file, [("max-depth", some n)]⟩ := by
    refine (Given.scan_awaiting "max-depth" (by decide) rfl rfl).trans ?_
    refine (Given.scan_number hn rfl).trans ?_
    exact Given.scan_file hf rfl
  rw [read?, if_pos (by decide), readUsed?, hscan]
  rfl

theorem read?_graph_dot (hf : Operand file) (hn : n ≤ 0xFFFFFFFFFFFFFFFF) :
    read? ["graph", "--dot", "--max-depth", toString n, file] = some (.graph file n true) := by
  have hscan : Given.read Usage.graph.flags ["--dot", "--max-depth", toString n, file] =
      .ok ⟨some file, [("dot", none), ("max-depth", some n)]⟩ := by
    refine (Given.scan_switch "dot" (by decide) rfl rfl (by decide) rfl).trans ?_
    refine (Given.scan_awaiting "max-depth" (by decide) rfl rfl).trans ?_
    refine (Given.scan_number hn rfl).trans ?_
    exact Given.scan_file hf rfl
  rw [read?, if_pos (by decide), readUsed?, hscan]
  rfl

theorem read?_trace (hf : Operand file) : read? ["trace", file] = some (.trace file false none) := by
  have hscan : Given.read Usage.trace.flags [file] = .ok ⟨some file, []⟩ := Given.scan_file hf rfl
  rw [read?, if_neg (by decide), if_pos (by decide), readUsed?, hscan]
  rfl

theorem read?_trace_static (hf : Operand file) :
    read? ["trace", "--static", file] = some (.trace file true none) := by
  have hscan : Given.read Usage.trace.flags ["--static", file] =
      .ok ⟨some file, [("static", none)]⟩ := by
    refine (Given.scan_switch "static" (by decide) rfl rfl (by decide) rfl).trans ?_
    exact Given.scan_file hf rfl
  rw [read?, if_neg (by decide), if_pos (by decide), readUsed?, hscan]
  rfl

theorem read?_trace_timeout (hf : Operand file) (hn : n ≤ 0xFFFFFFFFFFFFFFFF) :
    read? ["trace", "--timeout-ms", toString n, file] = some (.trace file false (some n)) := by
  have hscan : Given.read Usage.trace.flags ["--timeout-ms", toString n, file] =
      .ok ⟨some file, [("timeout-ms", some n)]⟩ := by
    refine (Given.scan_awaiting "timeout-ms" (by decide) rfl rfl).trans ?_
    refine (Given.scan_number hn rfl).trans ?_
    exact Given.scan_file hf rfl
  rw [read?, if_neg (by decide), if_pos (by decide), readUsed?, hscan]
  rfl

end Command

end Retrace
