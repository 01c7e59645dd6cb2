import Mathlib.Data.List.Infix
import Retrace.Proofs.Number.Numerals
import Retrace.Proofs.Text.Parts
import Retrace.Trace.Backtrace

/-! How frames are written in a backtrace, and that the frames of a written backtrace are read back:
the symbols without their hashes, and the files and lines where they are given. -/
namespace Retrace.Backtrace

open Text

/-! ### Written frames -/

def IsHash (s : List Char) : Prop := s.length = 16 ∧ ∀ c ∈ s, (hexValue? c).isSome

instance (s : List Char) : Decidable (IsHash s) :=
  decidable_of_iff (s.length = 16 ∧ s.all fun c => (hexValue? c).isSome)
    (and_congr_right fun _ => List.all_eq_true)

/-- A symbol as it stands in a frame: on one line, with no blanks around it, and without a hash. -/
structure Plain (s : List Char) : Prop extends Trimmed s where
  ne_nil : s ≠ []
  oneLine : '\n' ∉ s
  unhashed : ∀ head digits, IsHash digits → s ≠ head ++ Symbol.hashMark ++ digits

/-- Blanks at the beginning of a line. -/
def Indent (s : List Char) : Prop := ∀ c ∈ s, isBlank c ∧ c ≠ '\n'

/-- What may follow a symbol: a hash, or nothing. -/
inductive Suffix : List Char → Prop
  | none : Suffix []
  | hash {digits} : IsHash digits → Suffix (Symbol.hashMark ++ digits)

/-- A line with the symbol of a frame. -/
inductive FrameLine (symbol : String) : List Char → Prop
  | mk {indent number suffix} : Indent indent → number ≠ [] → (∀ c ∈ number, isDigit c) →
      Plain symbol.toList → Suffix suffix →
      FrameLine symbol (indent ++ (number ++ (": ".toList ++ (symbol.toList ++ suffix))))

/-- A line with the place of a frame: the file, the line in it, and a column. -/
inductive PlaceLine (file : String) (line : UInt32) : List Char → Prop
  | mk {indent} (column : Nat) : Indent indent → '\n' ∉ file.toList →
      PlaceLine file line (indent ++ ("at ".toList ++
        (file.toList ++ [':'] ++ (toString line.toNat).toList ++ [':'] ++
          (toString column).toList)))

/-- A line that is neither of these. -/
structure Idle (l : List Char) : Prop where
  oneLine : '\n' ∉ l
  noPlace : ¬ "at ".toList <+: trim l
  noFrame : ¬ ": ".toList <:+: trim l

instance (l : List Char) : Decidable (Idle l) :=
  decidable_of_iff ('\n' ∉ l ∧ ¬ "at ".toList <+: trim l ∧ ¬ ": ".toList <:+: trim l)
    ⟨fun h => ⟨h.1, h.2.1, h.2.2⟩, fun h => ⟨h.oneLine, h.noPlace, h.noFrame⟩⟩

/-- Frames and the lines they are written on: each frame has a line for its symbol and may have one
for its place. There may be other lines everywhere. -/
inductive Written : List RawFrame → List (List Char) → Prop
  | nil : Written [] []
  | idle {fs l ls} : Idle l → Written fs ls → Written fs (l :: ls)
  | frame {symbol fs l ls} : FrameLine symbol l → Written fs ls →
      Written (⟨symbol, none, none⟩ :: fs) (l :: ls)
  | placed {symbol file line fs l between m ls} : FrameLine symbol l → (∀ i ∈ between, Idle i) →
      PlaceLine file line m → Written fs ls →
      Written (⟨symbol, some file, some line.toNat⟩ :: fs) (l :: (between ++ m :: ls))

/-! ### What a line says -/

variable {s digits suffix number front back l : List Char} {symbol file : String} {line : UInt32}
  {frames fs : List RawFrame} {ls : List (List Char)}

theorem not_mem_of_isHash {c : Char} (h : IsHash digits) (hc : hexValue? c = none) :
    c ∉ digits := by
  intro hm
  have hsome := h.2 c hm
  rw [hc] at hsome
  cases hsome

theorem not_mem_of_isDigit {c : Char} (h : ∀ c ∈ s, isDigit c = true) (hc : isDigit c = false) :
    c ∉ s := by
  intro hm
  rw [h c hm] at hc
  cases hc

/-- The digits of a number and of a hash are no blanks. -/
theorem isBlank_of_hexValue? {c : Char} (h : (hexValue? c).isSome) : isBlank c = false := by
  have hc : 48 ≤ c.toNat ∧ c.toNat ≤ 102 := by
    unfold hexValue? isDigit at h
    simp only [Bool.and_eq_true, decide_eq_true_eq, Char.le_def, UInt32.le_iff_toNat_le] at h
    split at h
    · rename_i hd
      exact ⟨hd.1, Nat.le_trans hd.2 (by decide)⟩
    · split at h
      · rename_i hl
        exact ⟨Nat.le_trans (by decide) hl.1, hl.2⟩
      · split at h
        · rename_i hu
          exact ⟨Nat.le_trans (by decide) hu.1, Nat.le_trans hu.2 (by decide)⟩
        · cases h
  simp [isBlank]
  omega

theorem isDigit_hexValue? {c : Char} (h : isDigit c = true) : (hexValue? c).isSome := by
  rw [hexValue?, if_pos h]
  rfl

theorem IsHash.trimmed (h : IsHash digits) : Trimmed digits :=
  trimmed_of_forall fun c hc => isBlank_of_hexValue? (h.2 c hc)

theorem IsHash.ne_nil (h : IsHash digits) : digits ≠ [] := by
  rintro rfl
  exact absurd h.1 (by decide)

theorem Suffix.oneLine (h : Suffix suffix) : '\n' ∉ suffix := by
  cases h with
  | none => exact List.not_mem_nil
  | hash hd =>
    intro hm
    rcases List.mem_append.mp hm with hm | hm
    · exact absurd hm (by decide)
    · exact not_mem_of_isHash hd (by decide) hm

theorem Plain.trimmed_suffix (h : Plain s) (hs : Suffix suffix) : Trimmed (s ++ suffix) := by
  cases hs with
  | none => exact (List.append_nil s).symm ▸ h.toTrimmed
  | hash hd =>
    have hmark : Trimmed (Symbol.hashMark ++ _) :=
      hd.trimmed.append hd.ne_nil (by decide) (by decide)
    exact hmark.append (by simp [Symbol.hashMark]) h.ne_nil h.first

/-- The hash is taken off a symbol, and a symbol without one stays as it is. -/
theorem normalize_suffix (h : Plain s) (hs : Suffix suffix) :
    Symbol.normalize (s ++ suffix) = s := by
  have htrim := h.trimmed_suffix hs
  rw [Symbol.normalize, htrim.trim]
  cases hs with
  | none =>
    rw [List.append_nil]
    split
    · rename_i head digits hsplit
      have hsymbol := eq_append_of_splitLast hsplit
      split
      · rename_i hdigits
        exact absurd hsymbol (h.unhashed _ _ ⟨hdigits.1, by simpa using hdigits.2⟩)
      · rfl
    · rfl
  | @hash digits hd =>
    have hsplit : splitLast Symbol.hashMark (s ++ Symbol.hashMark ++ digits) = some (s, digits) :=
      splitLast_append (p := [':', ':']) (not_mem_of_isHash hd (by decide))
    have hdigits : digits.all fun c => (hexValue? c).isSome := List.all_eq_true.mpr hd.2
    rw [← List.append_assoc, hsplit]
    exact if_pos ⟨hd.1, hdigits⟩

/-- A line with a symbol is read as one, with the hash that may follow. -/
theorem entry_frameLine (h : FrameLine symbol l) : ∃ suffix, Suffix suffix ∧
    Plain symbol.toList ∧ entry l = .frame (symbol.toList ++ suffix) := by
  obtain ⟨hi, hn, hd, hs, hsuffix⟩ := h
  rename_i indent number suffix
  refine ⟨suffix, hsuffix, hs, ?_⟩
  have hnumber : number.head?.any isBlank = false := any_head?_of_forall fun c hc =>
    isBlank_of_hexValue? (isDigit_hexValue? (hd c hc))
  have hrest : Trimmed (": ".toList ++ (symbol.toList ++ suffix)) :=
    (hs.trimmed_suffix hsuffix).append (by simp [hs.ne_nil]) (by decide) (by decide)
  have htrim : trim (indent ++ (number ++ (": ".toList ++ (symbol.toList ++ suffix)))) = _ :=
    trim_append (fun c hc => (hi c hc).1) (hrest.append (by simp) hn hnumber)
  have hplace : stripPrefix? "at ".toList
      (number ++ (": ".toList ++ (symbol.toList ++ suffix))) = none := by
    obtain ⟨c, r, rfl⟩ := List.exists_cons_of_ne_nil hn
    have hc : 'a' ≠ c := by
      rintro rfl
      exact absurd (hd 'a' (by simp)) (by decide)
    simp [stripPrefix?, hc]
  have hsplit : splitOnce ": ".toList (number ++ (": ".toList ++ (symbol.toList ++ suffix))) =
      some (number, symbol.toList ++ suffix) :=
    splitOnce_append (p := [' ']) (not_mem_of_isDigit hd (by decide))
  have hall : number.all isDigit = true := List.all_eq_true.mpr hd
  rw [entry]
  simp only [htrim, hplace, hsplit, hall, Bool.and_true]
  exact if_pos (by simpa using hn)

/-- A line with a place is read as one. -/
theorem entry_placeLine (h : PlaceLine file line l) : ∃ column : Nat, entry l = .location
    (file.toList ++ [':'] ++ (toString line.toNat).toList ++ [':'] ++
      (toString column).toList) := by
  obtain ⟨column, hi, hf⟩ := h
  rename_i indent
  refine ⟨column, ?_⟩
  have hcolumn : Trimmed (toString column).toList := trimmed_of_forall fun c hc =>
    isBlank_of_hexValue? (isDigit_hexValue? (Number.isDigit_toString hc))
  have hplace := hcolumn.append (s := "at ".toList ++ (file.toList ++ [':'] ++
    (toString line.toNat).toList ++ [':'])) (Number.toString_ne_nil column) (by simp)
    (by simp; decide)
  rw [List.append_assoc] at hplace
  rw [entry]
  simp only [trim_append (fun c hc => (hi c hc).1) hplace, stripPrefix?_append]

theorem entry_idle (h : Idle l) : entry l = .other := by
  rw [entry]
  simp only [stripPrefix?_eq_none_iff.mpr h.noPlace, splitOnce_eq_none h.noFrame]

/-- The last two numbers of a place are the line and the column, whatever the file is called. -/
theorem location_place (file : List Char) (line : UInt32) (column : Nat) :
    location (file ++ [':'] ++ (toString line.toNat).toList ++ [':'] ++
      (toString column).toList) = (file, some line.toNat) := by
  have hcolon (n : Nat) : ':' ∉ (toString n).toList :=
    not_mem_of_isDigit (fun c hc => Number.isDigit_toString hc) (by decide)
  have hlast (front : List Char) (n : Nat) :
      splitLast [':'] (front ++ [':'] ++ (toString n).toList) = some (front, (toString n).toList) :=
    splitLast_append (p := []) (hcolon n)
  rw [location, hlast]
  simp only [hlast, Number.readWord32?_toString]

/-! ### Going through the lines -/

theorem add_idle (frames : List RawFrame) (h : Idle l) : add frames l = frames := by
  rw [add, entry_idle h]

theorem add_frameLine (frames : List RawFrame) (h : FrameLine symbol l) :
    add frames l = ⟨symbol, none, none⟩ :: frames := by
  obtain ⟨suffix, hsuffix, hs, he⟩ := entry_frameLine h
  rw [add, he]
  simp only [RawFrame.ofSymbol, String.toList_ofList, normalize_suffix hs hsuffix,
    String.ofList_toList]

theorem add_placeLine (frames : List RawFrame) (h : PlaceLine file line l) :
    add (⟨symbol, none, none⟩ :: frames) l =
      ⟨symbol, some file, some line.toNat⟩ :: frames := by
  obtain ⟨column, he⟩ := entry_placeLine h
  rw [add, he]
  simp only [location_place, Option.isNone_none, if_true, String.ofList_toList]

theorem foldl_idle (frames : List RawFrame) (h : ∀ l ∈ ls, Idle l) :
    ls.foldl add frames = frames := by
  induction ls with
  | nil => rfl
  | cons l ls ih =>
    obtain ⟨hl, hls⟩ := List.forall_mem_cons.mp h
    rw [List.foldl_cons, add_idle frames hl, ih hls]

/-- Written frames come before those that were found already, the latest first. -/
theorem foldl_written (h : Written fs ls) (frames : List RawFrame) :
    ls.foldl add frames = fs.reverse ++ frames := by
  induction h generalizing frames with
  | nil => rfl
  | idle hl _ ih => rw [List.foldl_cons, add_idle frames hl, ih]
  | frame hl _ ih =>
    rw [List.foldl_cons, add_frameLine frames hl, ih, List.reverse_cons, List.append_assoc]
    rfl
  | placed hl hbetween hm _ ih =>
    rw [List.foldl_cons, add_frameLine frames hl, List.foldl_append, foldl_idle _ hbetween,
      List.foldl_cons, add_placeLine frames hm, ih, List.reverse_cons, List.append_assoc]
    rfl

/-! ### The text of the lines -/

theorem Indent.oneLine (h : Indent s) : '\n' ∉ s := fun hm => (h _ hm).2 rfl

theorem FrameLine.oneLine (h : FrameLine symbol l) : '\n' ∉ l := by
  obtain ⟨hi, -, hd, hs, hsuffix⟩ := h
  have hnumber := not_mem_of_isDigit hd (c := '\n') (by decide)
  simp [hi.oneLine, hnumber, hs.oneLine, hsuffix.oneLine]

theorem PlaceLine.oneLine (h : PlaceLine file line l) : '\n' ∉ l := by
  obtain ⟨column, hi, hf⟩ := h
  have hdigits (n : Nat) : '\n' ∉ (toString n).toList :=
    not_mem_of_isDigit (fun c hc => Number.isDigit_toString hc) (by decide)
  have hline := hdigits line.toNat
  have hcolumn := hdigits column
  simp only [List.mem_append, not_or]
  exact ⟨hi.oneLine, by decide, ⟨⟨⟨hf, by decide⟩, hline⟩, by decide⟩, hcolumn⟩

theorem Written.oneLine (h : Written fs ls) : ∀ l ∈ ls, '\n' ∉ l := by
  induction h with
  | nil => exact nofun
  | idle hl _ ih => exact List.forall_mem_cons.mpr ⟨hl.oneLine, ih⟩
  | frame hl _ ih => exact List.forall_mem_cons.mpr ⟨hl.oneLine, ih⟩
  | placed hl hbetween hm _ ih =>
    refine List.forall_mem_cons.mpr ⟨hl.oneLine, List.forall_mem_append.mpr ⟨?_, ?_⟩⟩
    · exact fun i hi => (hbetween i hi).oneLine
    · exact List.forall_mem_cons.mpr ⟨hm.oneLine, ih⟩

theorem idle_nil : Idle [] := ⟨List.not_mem_nil, by decide, by decide⟩

theorem add_nil (frames : List RawFrame) : add frames [] = frames := add_idle frames idle_nil

theorem add_dropReturn (frames : List RawFrame) (l : List Char) :
    add frames (dropReturn l) = add frames l := by
  rw [add, add, entry, entry, trim_dropReturn]

/-- The frames that are written in a text are those that are read from it, in their order, with
their symbols, files and lines. -/
theorem parse_written (h : Written fs ls) : parse (String.ofList (join ['\n'] ls)) = fs := by
  rw [parse, String.toList_ofList, foldl_lines_join add_nil add_dropReturn h.oneLine,
    foldl_written h, List.append_nil, List.reverse_reverse]

/-- A symbol of less than nineteen characters has no room for a hash. -/
theorem plain_of_short (h : Trimmed s ∧ s ≠ [] ∧ '\n' ∉ s ∧ s.length < 19) : Plain s := by
  obtain ⟨ht, hne, ho, hlen⟩ := h
  refine ⟨ht, hne, ho, fun head digits hd he => ?_⟩
  have hsum := congrArg List.length he
  have hmark : Symbol.hashMark.length = 3 := by decide
  rw [List.length_append, List.length_append, hd.1, hmark] at hsum
  omega

/-- A header, a frame with a hash, a blank line between it and its place, and a frame without a
place. -/
def sampleText : String :=
  "stack backtrace:\n   0: a::f::h0123456789abcdef\n\n      at C:/x.rs:14:13\n" ++
    "  12: <b as c>::g\n"

def sampleFrames : List RawFrame :=
  [⟨"a::f", some "C:/x.rs", some 14⟩, ⟨"<b as c>::g", none, none⟩]

theorem parse_written_sample : ∃ ls, Written sampleFrames ls ∧
    String.ofList (join ['\n'] ls) = sampleText ∧ parse sampleText = sampleFrames := by
  have hindent (n : Nat) : Indent (List.replicate n ' ') := by
    intro c hc
    obtain rfl := List.eq_of_mem_replicate hc
    decide
  have hf : Plain "a::f".toList := plain_of_short (by decide +kernel)
  have hg : Plain "<b as c>::g".toList := plain_of_short (by decide +kernel)
  have hhash : IsHash "0123456789abcdef".toList := by decide +kernel
  have hheader : Idle "stack backtrace:".toList := by decide +kernel
  have hbetween : ∀ l ∈ [[]], Idle l := by simp [idle_nil]
  have hfirst : FrameLine "a::f" _ :=
    @FrameLine.mk _ _ ['0'] _ (hindent 3) (by decide) (by simp [isDigit]) hf (.hash hhash)
  have hplace : PlaceLine "C:/x.rs" 14 _ := .mk 13 (hindent 6) (by decide +kernel)
  have hlast : FrameLine "<b as c>::g" _ :=
    @FrameLine.mk _ _ ['1', '2'] _ (hindent 2) (by decide) (by simp [isDigit]) hg .none
  obtain ⟨ls, hw, htext⟩ : ∃ ls, Written sampleFrames ls ∧
      String.ofList (join ['\n'] ls) = sampleText :=
    ⟨_, .idle hheader (.placed hfirst hbetween hplace (.frame hlast (.idle idle_nil .nil))),
      by decide +kernel⟩
  exact ⟨ls, hw, htext, htext ▸ parse_written hw⟩

end Retrace.Backtrace
