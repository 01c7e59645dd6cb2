import Retrace.Proofs.Json.Notation

/-! A part of a document that nobody asked for is passed over as a whole, whatever it says and however
deep it is nested. -/
namespace Retrace.Json

open Retrace.Text Reader

variable {c : Char} {s t u v g : List Char} {parts : List (List Char)} {r : Input} {d : Json}

/-! ### Texts -/

namespace Reader

/-- What stands for a character takes one turn, or two if it is a pair of code units. -/
theorem skipTextFrom_charText (h : CharText c u) : ∃ k ≤ u.length, ∀ fuel,
    skipTextFrom (k + fuel) (u.map some ++ r) = skipTextFrom fuel r := by
  have hunit {w : List Char} {n : Nat} (hw : CodeUnit w n) (fuel : Nat) (r : Input) :
      skipTextFrom (fuel + 1) (some '\\' :: some 'u' :: (w.map some ++ r)) =
        skipTextFrom fuel r := by
    have hescape : escape (do let _ ← codeUnit; return ' ') (some 'u' :: (w.map some ++ r)) =
        .ok (' ', r) := bind_eq (codeUnit_eq hw)
    rw [skipTextFrom]
    dsimp only
    rw [if_neg (by decide), if_pos rfl, hescape]
    rfl
  cases h with
  | plain hc hq hb =>
    refine ⟨1, by simp, fun fuel => ?_⟩
    rw [Nat.add_comm]
    simp [skipTextFrom, hc, hq, hb]
  | letter h =>
    refine ⟨1, by simp, fun fuel => ?_⟩
    rw [Nat.add_comm]
    simp [skipTextFrom, escape_letter (r := r) _ h, bind, Except.bind]
  | unit h =>
    refine ⟨1, by simp, fun fuel => ?_⟩
    rw [Nat.add_comm]
    exact hunit h fuel r
  | pair hu hv =>
    refine ⟨2, by simp, fun fuel => ?_⟩
    rw [show 2 + fuel = (fuel + 1) + 1 by omega]
    simp only [List.map_cons, List.map_append, List.cons_append, List.append_assoc]
    rw [hunit hu, hunit hv]

theorem skipTextFrom_charTexts (h : List.Forall₂ CharText s parts) :
    ∃ k ≤ parts.flatten.length, ∀ fuel,
      skipTextFrom (k + fuel + 1) (parts.flatten.map some ++ some '"' :: r) = .ok ((), r) := by
  induction h with
  | nil => exact ⟨0, by simp, fun fuel => by simp [skipTextFrom]⟩
  | @cons c u s parts h _ ih =>
    obtain ⟨k, hk, hskip⟩ := ih
    obtain ⟨j, hj, hchar⟩ :=
      skipTextFrom_charText (r := parts.flatten.map some ++ some '"' :: r) h
    refine ⟨j + k, by simp only [List.flatten_cons, List.length_append]; omega, fun fuel => ?_⟩
    rw [show j + k + fuel + 1 = j + (k + fuel + 1) by omega, List.flatten_cons, List.map_append,
      List.append_assoc, hchar, hskip]

/-- A text is passed over up to the quote that closes it. -/
theorem skipText_charTexts (h : List.Forall₂ CharText s parts) :
    skipText (parts.flatten.map some ++ some '"' :: r) = .ok ((), r) := by
  obtain ⟨k, hk, hskip⟩ := skipTextFrom_charTexts (r := r) h
  have hlength : (parts.flatten.map some ++ some '"' :: r).length + 1 =
      k + (parts.flatten.length - k + r.length + 1) + 1 := by
    simp only [List.length_append, List.length_map, List.length_cons]
    omega
  rw [skipText, hlength]
  exact hskip _

end Reader

/-! ### Numbers -/

namespace Numeral

theorem passDigits_digits {ds : List Char} (hd : ∀ c ∈ ds, c.isDigit) (hr : seesDigit r = false) :
    passDigits (ds.map some ++ r) = (ds.length, r) := by
  have hdigits : ∀ p ∈ ds.map (some : Char → Piece), (digit? p).isSome = true := by
    intro p hp
    obtain ⟨c, hc, rfl⟩ := List.mem_map.mp hp
    rw [digit?_some (hd c hc)]
    rfl
  have hover : r.takeWhile (fun p => (digit? p).isSome) = [] ∧
      r.dropWhile (fun p => (digit? p).isSome) = r := by
    cases r with
    | nil => exact ⟨rfl, rfl⟩
    | cons p r =>
      have hp : (digit? p).isSome = false := by simpa [seesDigit] using hr
      simp [hp]
  rw [passDigits, List.takeWhile_append_of_pos hdigits, List.dropWhile_append_of_pos hdigits,
    hover.1, hover.2, List.append_nil, List.length_map]

theorem seesDigit_digits {ds : List Char} (h : Digits ds) (r : Input) :
    seesDigit (ds.map some ++ r) = true := by
  obtain ⟨hne, hd⟩ := h
  cases ds with
  | nil => exact absurd rfl hne
  | cons c ds => simp [seesDigit, digit?_some (hd c List.mem_cons_self)]

theorem skipExponent_eq {sign ds : List Char} (hs : sign ∈ [[], ['+'], ['-']]) (hd : Digits ds)
    (hr : seesDigit r = false) : skipExponent ((sign ++ ds).map some ++ r) = .ok ((), r) := by
  have hsees := seesDigit_digits hd r
  have hpass := passDigits_digits hd.digits hr
  have hsign : (exponentSign ((sign ++ ds).map some ++ r)).2 = ds.map some ++ r := by
    simp only [List.mem_cons, List.not_mem_nil, or_false] at hs
    rcases hs with rfl | rfl | rfl
    · obtain ⟨hne, hdigits⟩ := hd
      cases ds with
      | nil => exact absurd rfl hne
      | cons c ds =>
        have hc := hdigits c List.mem_cons_self
        have hplus : c ≠ '+' := by rintro rfl; exact absurd hc (by decide)
        have hminus : c ≠ '-' := by rintro rfl; exact absurd hc (by decide)
        simp only [List.nil_append, List.map_cons, List.cons_append]
        unfold exponentSign
        split
        · rename_i h; simp at h; exact absurd h.1 hplus
        · rename_i h; simp at h; exact absurd h.1 hminus
        · rfl
    · rfl
    · rfl
  simp only [skipExponent, hsign, hsees, hpass, if_true]

/-- An exponent is passed over, or there is none and nothing is. -/
theorem skip_exponent {e : List Char} (he : Exponent e) (hr : AtEnd r) :
    seesDigit (e.map some ++ r) = false ∧ (e.map some ++ r).head? ≠ some (some '.') ∧
      (if seesExponent (e.map some ++ r) then skipExponent (e.map some ++ r).tail
        else .ok ((), e.map some ++ r)) = .ok ((), r) := by
  obtain ⟨hdigit, hexponent, hpoint⟩ := number_over hr
  rcases he with rfl | ⟨l, sign, ds, hl, hs, hd, rfl⟩
  · simp [hdigit, hexponent, hpoint]
  · have hletter : seesDigit (some l :: ((sign ++ ds).map some ++ r)) = false ∧ l ≠ '.' ∧
        seesExponent (some l :: ((sign ++ ds).map some ++ r)) = true := by
      simp only [List.mem_cons, List.not_mem_nil, or_false] at hl
      rcases hl with rfl | rfl <;> simp only [seesDigit, seesExponent, List.head?_cons] <;> decide
    have hskip := skipExponent_eq hs hd hdigit
    simp only [List.cons_append, List.map_cons, List.head?_cons, List.tail_cons]
    refine ⟨hletter.1, by simpa using hletter.2.1, ?_⟩
    rw [if_pos hletter.2.2, hskip]

theorem skipTail_eq {f e : List Char} (hf : Fraction f) (he : Exponent e) (hr : AtEnd r) :
    seesDigit ((f ++ e).map some ++ r) = false ∧
      skipTail ((f ++ e).map some ++ r) = .ok ((), r) := by
  obtain ⟨hdigit, hpoint, hskip⟩ := skip_exponent he hr
  rcases hf with rfl | ⟨ds, hd, rfl⟩
  · rw [List.nil_append]
    exact ⟨hdigit, by rw [skipTail, if_neg hpoint, hskip]⟩
  · have hpass := passDigits_digits hd.digits hdigit
    have hlength : ds.length ≠ 0 := by simpa using hd.nonempty
    refine ⟨by simp only [List.cons_append, List.map_cons, seesDigit, List.head?_cons]; decide, ?_⟩
    rw [List.cons_append, List.map_cons, List.cons_append, skipTail, List.head?_cons, if_pos rfl,
      List.tail_cons, List.map_append, List.append_assoc, skipFraction, hpass]
    simp only [if_neg hlength]
    exact hskip

/-- A number is passed over to its end. -/
theorem skip_written (h : Written u) (hr : AtEnd r) : skip (u.map some ++ r) = .ok ((), r) := by
  obtain ⟨sign, ws, f, e, hsign, hw, hf, he, rfl⟩ := h
  obtain ⟨hdigit, htail⟩ := skipTail_eq hf he hr
  obtain ⟨c, cs, hcs, hc⟩ := hw.head (f ++ e)
  have hminus : c ≠ '-' := by rintro rfl; exact absurd hc (by decide)
  have hstart : (if ((sign ++ (ws ++ (f ++ e))).map some ++ r).head? = some (some '-') then
      ((sign ++ (ws ++ (f ++ e))).map some ++ r).tail
      else (sign ++ (ws ++ (f ++ e))).map some ++ r) = (ws ++ (f ++ e)).map some ++ r := by
    simp only [List.mem_cons, List.not_mem_nil, or_false] at hsign
    rcases hsign with rfl | rfl
    · rw [List.nil_append, hcs]
      simp [hminus]
    · simp
  have hdigits := passDigits_digits hw.digits hdigit
  rw [skip, hstart]
  rcases hw.starts with rfl | ⟨c, cs, rfl, hc⟩
  · rw [List.map_append, List.append_assoc]
    simp only [List.map_cons, List.map_nil, List.cons_append, List.nil_append, hdigit, htail,
      if_true, Bool.false_eq_true, if_false]
  · have hsees : seesDigit (some c :: (cs.map some ++ ((f ++ e).map some ++ r))) = true := by
      simp [seesDigit, digit?_some (hw.digits c List.mem_cons_self)]
    simp only [List.map_cons, List.cons_append, List.map_append, List.append_assoc] at hdigits hsees htail ⊢
    simp [hc, hsees, hdigits, htail]

end Numeral

/-! ### Documents -/

namespace Skip

/-- What comes in a frame before a value: the name of a field, or nothing. -/
def Frame.entry : Frame → Stage
  | .list => .value
  | .record => .name

/-- A value is passed over in `k` turns, whatever encloses it. -/
def Passes (k : Nat) (u : List Char) : Prop :=
  0 < k ∧ ∀ fuel frames r, AtEnd r →
    go (k + fuel) frames .value (u.map some ++ r) = go fuel frames .after r

/-- A part of a frame, with the blanks before it, is passed over in `k` turns. -/
def Enters (frame : Frame) (k : Nat) (v : List Char) : Prop :=
  ∀ fuel frames r, AtEnd r → ∃ g, Gap g ∧
    go (k + fuel) (frame :: frames) frame.entry (v.map some ++ r) =
      go fuel (frame :: frames) .after (g.map some ++ r)

/-- The parts of a frame and its end are passed over in `k` turns. -/
def Closes (frame : Frame) (k : Nat) (w : List Char) : Prop :=
  ∀ fuel frames r, go (k + fuel) (frame :: frames) frame.entry (w.map some ++ frame.close :: r) =
    go fuel frames .after r

variable {frame : Frame} {k : Nat}

theorem lenient_value (fuel : Nat) (frames : List Frame) : Lenient (go (fuel + 1) frames .value) := by
  unfold go
  exact lenient_next.bind _

theorem lenient_entry (fuel : Nat) (frame : Frame) (frames : List Frame) :
    Lenient (go (fuel + 1) (frame :: frames) frame.entry) := by
  cases frame with
  | list => exact lenient_value fuel _
  | record =>
    unfold Frame.entry go
    exact lenient_next.bind _

theorem lenient_first (fuel : Nat) (frame : Frame) (frames : List Frame) :
    Lenient (go (fuel + 1) (frame :: frames) .first) := by
  unfold go
  exact lenient_next.bind _

theorem lenient_after (fuel : Nat) (frame : Frame) (frames : List Frame) :
    Lenient (go (fuel + 1) (frame :: frames) .after) := by
  unfold go
  exact lenient_next.bind _

theorem close_eq (frame : Frame) : isGap frame.close = false ∧ frame.close ≠ some ',' := by
  cases frame <;> decide

theorem atEnd_close (frame : Frame) (r : Input) : AtEnd (frame.close :: r) := by
  cases frame with
  | list => exact atEnd_bracket r
  | record => exact atEnd_closing r

theorem go_close (fuel : Nat) (frame : Frame) (frames : List Frame) (r : Input) :
    go (fuel + 1) (frame :: frames) .after (frame.close :: r) = go fuel frames .after r := by
  rw [go, bind_eq (next_eq (close_eq frame).1)]
  dsimp only
  rw [if_pos rfl, bind_eq (skip_eq _)]

theorem go_comma (fuel : Nat) (frame : Frame) (frames : List Frame) (r : Input) :
    go (fuel + 1) (frame :: frames) .after (some ',' :: r) =
      go fuel (frame :: frames) frame.entry r := by
  rw [go, bind_eq (next_eq (by decide))]
  dsimp only
  rw [if_neg (close_eq frame).2.symm, if_pos rfl, bind_eq (skip_eq _)]
  cases frame <;> rfl

/-- The last part of a frame is followed by the end of the frame. -/
theorem Enters.closes (h : Enters frame k v) : Closes frame (k + 1) v := by
  intro fuel frames r
  obtain ⟨g, hg, hgo⟩ := h (fuel + 1) frames (frame.close :: r) (atEnd_close frame r)
  rw [show k + 1 + fuel = k + (fuel + 1) by omega, hgo, lenient_after fuel frame frames g _ hg,
    go_close]

theorem Enters.closes_cons {w : List Char} {m : Nat} (h : Enters frame k v) (hw : Closes frame m w) :
    Closes frame (k + 1 + m) (v ++ ',' :: w) := by
  intro fuel frames r
  obtain ⟨g, hg, hgo⟩ := h (m + fuel + 1) frames
    (some ',' :: (w.map some ++ frame.close :: r)) (atEnd_comma _)
  rw [show k + 1 + m + fuel = k + (m + fuel + 1) by omega, List.map_append, List.append_assoc,
    List.map_cons, List.cons_append, hgo, lenient_after _ frame frames g _ hg, go_comma, hw]

theorem exists_closes (hne : parts ≠ [])
    (h : ∀ v ∈ parts, ∃ k, k + 1 ≤ 3 * v.length ∧ Enters frame k v) :
    ∃ k, 0 < k ∧ k ≤ 3 * (join [','] parts).length ∧ Closes frame k (join [','] parts) := by
  induction parts with
  | nil => exact absurd rfl hne
  | cons v parts ih =>
    obtain ⟨⟨k, hk, hv⟩, hparts⟩ := List.forall_mem_cons.mp h
    cases parts with
    | nil => exact ⟨k + 1, by omega, by simpa [join] using hk, by simpa [join] using hv.closes⟩
    | cons w parts =>
      obtain ⟨m, -, hm, hw⟩ := ih (List.cons_ne_nil w parts) hparts
      have hjoin : join [','] (v :: w :: parts) = v ++ ',' :: join [','] (w :: parts) := by
        simp [join]
      rw [hjoin]
      refine ⟨k + 1 + m, by omega, ?_, hv.closes_cons hw⟩
      simp only [List.length_append, List.length_cons]
      omega

/-- The first part of a frame starts with something else than its end. -/
def Begins (frame : Frame) (w : List Char) : Prop :=
  ∃ g c w', w = g ++ c :: w' ∧ Gap g ∧ isGap (some c) = false ∧ some c ≠ frame.close

theorem go_first {w : List Char} (hw : Begins frame w) (fuel : Nat) (frames : List Frame)
    (r : Input) : go (fuel + 2) (frame :: frames) .first (w.map some ++ r) =
      go (fuel + 1) (frame :: frames) frame.entry (w.map some ++ r) := by
  obtain ⟨g, c, w, rfl, hg, hgap, hclose⟩ := hw
  rw [List.map_append, List.append_assoc, lenient_first _ frame frames g _ hg,
    lenient_entry _ frame frames g _ hg, List.map_cons, List.cons_append, go,
    bind_eq (next_eq hgap)]
  dsimp only
  rw [if_neg hclose]
  cases frame <;> rfl

/-- The end of a frame without parts. -/
theorem go_empty (hg : Gap g) (fuel : Nat) (frame : Frame) (frames : List Frame) (r : Input) :
    go (fuel + 1) (frame :: frames) .first (g.map some ++ frame.close :: r) =
      go fuel frames .after r := by
  rw [lenient_first _ frame frames g _ hg, go, bind_eq (next_eq (close_eq frame).1)]
  dsimp only
  rw [if_pos rfl, bind_eq (skip_eq _)]

def Frame.opens : Frame → Char
  | .list => '['
  | .record => Char.ofNat 123

/-- The closing mark of a frame as a character. -/
def Frame.ends : Frame → Char
  | .list => ']'
  | .record => Char.ofNat 125

theorem go_open (fuel : Nat) (frame : Frame) (frames : List Frame) (r : Input) :
    go (fuel + 1) frames .value (some frame.opens :: r) = go fuel (frame :: frames) .first r := by
  cases frame with
  | list =>
    rw [go, Frame.opens, bind_eq (next_eq (by decide))]
    exact bind_eq (skip_eq _)
  | record =>
    rw [go, Frame.opens, bind_eq (next_eq (by decide))]
    exact bind_eq (skip_eq _)

/-- A list or a record is passed over if its parts are. -/
theorem exists_passes_enclosed (frame : Frame) (hu : Enclosed frame.opens parts frame.ends u)
    (hb : ∀ v ∈ parts.head?, Begins frame v)
    (h : ∀ v ∈ parts, ∃ k, k + 1 ≤ 3 * v.length ∧ Enters frame k v) :
    ∃ k, k + 1 ≤ 3 * u.length ∧ Passes k u := by
  have hends : some frame.ends = frame.close := by cases frame <;> rfl
  rcases hu with ⟨hne, rfl⟩ | ⟨g, hg, rfl, rfl⟩
  · obtain ⟨k, hpos, hk, hcloses⟩ := exists_closes hne h
    have hbegins : Begins frame (join [','] parts) := by
      cases parts with
      | nil => exact absurd rfl hne
      | cons v parts =>
        obtain ⟨g, c, w, rfl, hg, hgap, hclose⟩ := hb v rfl
        rw [join_cons]
        exact ⟨g, c, _, by rw [List.append_assoc]; rfl, hg, hgap, hclose⟩
    obtain ⟨k, rfl⟩ : ∃ j, k = j + 1 := ⟨k - 1, by omega⟩
    refine ⟨k + 3, by simp only [List.length_append, List.length_cons, List.length_nil]; omega,
      by omega, fun fuel frames r _ => ?_⟩
    rw [List.cons_append, List.map_cons, List.cons_append, List.map_append, List.append_assoc,
      show k + 3 + fuel = k + fuel + 2 + 1 by omega, go_open, go_first hbegins,
      show k + fuel + 1 = k + 1 + fuel by omega]
    simp only [List.map_cons, List.map_nil, List.cons_append, List.nil_append, hends]
    exact hcloses fuel frames r
  · refine ⟨2, by simp only [List.length_append, List.length_cons, List.length_nil]; omega,
      by omega, fun fuel frames r _ => ?_⟩
    rw [List.cons_append, List.map_cons, List.cons_append, List.map_append, List.append_assoc,
      show 2 + fuel = fuel + 1 + 1 by omega, go_open]
    simp only [List.map_cons, List.map_nil, List.cons_append, List.nil_append, hends]
    exact go_empty hg fuel frame frames r

/-- A scalar is passed over in one turn. -/
theorem passes_scalar (hc : d.Leads c) (hl : c ≠ '[') (hr : c ≠ Char.ofNat 123)
    (h : ∀ r, AtEnd r → scalar (some c) (some c :: (v.map some ++ r)) = .ok ((), r)) :
    Passes 1 (c :: v) := by
  refine ⟨by omega, fun fuel frames r hend => ?_⟩
  rw [Nat.add_comm, List.map_cons, List.cons_append, go, bind_eq (next_eq hc.not_gap.1)]
  dsimp only
  rw [if_neg (by simpa using hl), if_neg (by simpa [opening] using hr), bind_eq (h r hend)]

theorem begins_padded (hv : Padded d.SpelledBy v) : Begins .list v := by
  obtain ⟨g, u, g', hg, -, hu, rfl⟩ := hv
  obtain ⟨c, w, rfl, hc⟩ := hu.head
  exact ⟨g, c, w ++ g', by simp, hg, hc.not_gap.1, by simpa [Frame.close] using hc.not_gap.2⟩

theorem begins_quoted {s k : List Char} (hk : Padded (QuotedText s) k) (w : List Char) :
    Begins .record (k ++ w) := by
  obtain ⟨g, u, g', hg, -, ⟨parts, -, rfl⟩, rfl⟩ := hk
  refine ⟨g, '"', parts.flatten ++ '"' :: (g' ++ w), by simp, hg, by decide, by decide⟩

theorem Passes.padded (h : Passes k u) {g g' : List Char} (hg : Gap g) (hg' : Gap g')
    (hr : AtEnd r) (fuel : Nat) (frames : List Frame) :
    go (k + fuel) frames .value ((g ++ u ++ g').map some ++ r) =
      go fuel frames .after (g'.map some ++ r) := by
  obtain ⟨hpos, hpass⟩ := h
  obtain ⟨k, rfl⟩ : ∃ j, k = j + 1 := ⟨k - 1, by omega⟩
  rw [List.append_assoc, List.map_append, List.append_assoc, Nat.add_right_comm,
    lenient_value _ _ g _ hg, List.map_append, List.append_assoc, Nat.add_right_comm,
    hpass _ _ _ (atEnd_gap hg' hr)]

theorem Passes.enters_list (h : Passes k u) {g g' : List Char} (hg : Gap g) (hg' : Gap g') :
    Enters .list k (g ++ u ++ g') :=
  fun fuel frames _ hr => ⟨g', hg', h.padded hg hg' hr fuel (.list :: frames)⟩

/-- A field takes one more turn than its value. -/
theorem Passes.enters_record {s w : List Char} (h : Passes k u) (hw : Padded (QuotedText s) w)
    {g g' : List Char} (hg : Gap g) (hg' : Gap g') :
    Enters .record (k + 1) (w ++ ':' :: (g ++ u ++ g')) := by
  intro fuel frames r hr
  refine ⟨g', hg', ?_⟩
  obtain ⟨e, q, e', he, he', ⟨parts, hparts, rfl⟩, rfl⟩ := hw
  have hvalue := h.padded hg hg' hr fuel (.record :: frames)
  have htext : (e ++ ('"' :: parts.flatten ++ ['"']) ++ e' ++ ':' :: (g ++ u ++ g')).map some ++ r =
      e.map some ++ (some '"' :: (parts.flatten.map some ++ some '"' ::
        (e'.map some ++ some ':' :: ((g ++ u ++ g').map some ++ r)))) := by simp
  have hcolon : next (e'.map some ++ some ':' :: ((g ++ u ++ g').map some ++ r)) =
      .ok (some (some ':'), some ':' :: ((g ++ u ++ g').map some ++ r)) := by
    rw [lenient_next e' _ he', next_eq (by decide)]
  rw [htext, Nat.add_right_comm, lenient_entry _ .record frames e _ he, Frame.entry, go,
    bind_eq (next_eq (by decide))]
  dsimp only
  rw [if_neg (by simp), bind_eq (skip_eq _), bind_eq (skipText_charTexts hparts), bind_eq hcolon]
  dsimp only
  rw [if_neg (by simp), bind_eq (skip_eq _), hvalue]
  exact List.cons_ne_nil _ _

mutual
/-- Whatever a document says, it is passed over. -/
theorem exists_passes : (d : Json) → {u : List Char} → d.SpelledBy u →
    ∃ k, k + 1 ≤ 3 * u.length ∧ Passes k u
  | .null, u, h => by
    obtain rfl : u = "null".toList := h
    exact ⟨1, by decide, passes_scalar (d := .null) rfl (by decide) (by decide) fun r _ =>
      word_eq (r := r) "null".toList⟩
  | .truth b, u, h => by
    cases b with
    | true =>
      obtain rfl : u = "true".toList := h
      exact ⟨1, by decide, passes_scalar (d := .truth true) rfl (by decide) (by decide) fun r _ =>
        word_eq (r := r) "true".toList⟩
    | false =>
      obtain rfl : u = "false".toList := h
      exact ⟨1, by decide, passes_scalar (d := .truth false) rfl (by decide) (by decide) fun r _ =>
        word_eq (r := r) "false".toList⟩
  | .number t, u, h => by
    obtain ⟨c, v, rfl, hc⟩ := SpelledBy.head h
    have hne {e : Char} (hm : e ≠ '-') (hd : e.isDigit = false) : c ≠ e :=
      Decoder.ne_of_number hc hm hd
    refine ⟨1, by simp only [List.length_cons]; omega,
      passes_scalar hc (hne (by decide) (by decide)) (hne (by decide) (by decide)) fun r hr => ?_⟩
    have hsome {e : Char} (hm : e ≠ '-') (hd : e.isDigit = false) : (some c : Piece) ≠ some e := by
      simpa using hne hm hd
    rw [scalar, if_neg (hsome (by decide) (by decide)), if_neg (hsome (by decide) (by decide)),
      if_neg (hsome (by decide) (by decide)), if_neg (hsome (by decide) (by decide)),
      if_pos (Decoder.sees_number hc)]
    exact Numeral.skip_written h.2 hr
  | .text s, u, h => by
    obtain ⟨parts, hparts, rfl⟩ := h
    refine ⟨1, by simp only [List.length_append, List.length_cons, List.length_nil]; omega,
      passes_scalar (d := .text s) rfl (by decide) (by decide) fun r _ => ?_⟩
    rw [scalar, if_neg (by decide), if_neg (by decide), if_neg (by decide), if_pos rfl,
      bind_eq (skip_eq _)]
    have htext : ((parts.flatten ++ ['"']).map some ++ r : Input) =
        parts.flatten.map some ++ some '"' :: r := by simp
    exact (congrArg skipText htext).trans (skipText_charTexts hparts)
  | .list items, u, h => by
    obtain ⟨parts, hparts, hu⟩ := h
    refine exists_passes_enclosed .list hu ?_ (exists_enters_items items hparts)
    cases items with
    | nil =>
      obtain rfl : parts = [] := hparts
      exact nofun
    | cons d ds =>
      obtain ⟨v, rest, hv, -, rfl⟩ := hparts
      exact fun w hw => Option.some.inj hw ▸ begins_padded hv
  | .record fields, u, h => by
    obtain ⟨parts, hparts, hu⟩ := h
    refine exists_passes_enclosed .record hu ?_ (exists_enters_fields fields hparts)
    cases fields with
    | nil =>
      obtain rfl : parts = [] := hparts
      exact nofun
    | cons f fs =>
      obtain ⟨k, v, rest, hk, -, -, rfl⟩ := hparts
      exact fun w hw => Option.some.inj hw ▸ begins_quoted hk _

theorem exists_enters_items : (ds : List Json) → {parts : List (List Char)} →
    SpelledItems ds parts → ∀ v ∈ parts, ∃ k, k + 1 ≤ 3 * v.length ∧ Enters .list k v
  | [], parts, h => by
    obtain rfl : parts = [] := h
    exact nofun
  | d :: ds, parts, h => by
    obtain ⟨v, rest, ⟨g, u, g', hg, hg', hu, rfl⟩, hrest, rfl⟩ := h
    obtain ⟨k, hk, hpass⟩ := exists_passes d hu
    refine List.forall_mem_cons.mpr ⟨⟨k, ?_, hpass.enters_list hg hg'⟩,
      exists_enters_items ds hrest⟩
    simp only [List.length_append]
    omega

theorem exists_enters_fields : (fs : List (String × Json)) → {parts : List (List Char)} →
    SpelledFields fs parts → ∀ v ∈ parts, ∃ k, k + 1 ≤ 3 * v.length ∧ Enters .record k v
  | [], parts, h => by
    obtain rfl : parts = [] := h
    exact nofun
  | (name, d) :: fs, parts, h => by
    obtain ⟨w, v, rest, hw, ⟨g, u, g', hg, hg', hu, rfl⟩, hrest, rfl⟩ := h
    obtain ⟨k, hk, hpass⟩ := exists_passes d hu
    refine List.forall_mem_cons.mpr ⟨⟨k + 1, ?_, hpass.enters_record hw hg hg'⟩,
      exists_enters_fields fs hrest⟩
    simp only [List.length_append, List.length_cons]
    omega
end

end Skip

/-- A document is passed over up to its end, with the blanks before it. -/
theorem skipValue_spelled (hg : Gap g) (hu : d.SpelledBy u) (hr : AtEnd r) :
    skipValue (g.map some ++ (u.map some ++ r)) = .ok ((), r) := by
  obtain ⟨k, hk, hpass⟩ := Skip.exists_passes d hu
  have hfuel : 3 * (g.map some ++ (u.map some ++ r)).length + 3 =
      k + (3 * (g.map some ++ (u.map some ++ r)).length + 3 - k) := by
    simp only [List.length_append, List.length_map]
    omega
  have hpadded := hpass.padded hg gap_nil hr
    (3 * (g.map some ++ (u.map some ++ r)).length + 3 - k) []
  simp only [List.append_nil, List.map_append, List.append_assoc, List.map_nil,
    List.nil_append] at hpadded
  rw [skipValue, hfuel, hpadded]
  cases 3 * (g.map some ++ (u.map some ++ r)).length + 3 - k <;> rfl

end Retrace.Json
