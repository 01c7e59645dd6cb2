import Mathlib.Data.List.Forall2
import Retrace.Proofs.Trace.Symbol

/-! The segments of a symbol as a scan over its bytes finds them. A scan takes one byte or two at a
time and knows nothing of characters, and yet it divides the symbol between characters only. -/
namespace Retrace.Symbol

open Text

/-- A scan over bytes: how many brackets are open, a count without bound as in `segmentsFrom`, where
the current segment starts, which byte is the next one, and the segments that have ended, each by
its first byte and the byte after it. -/
structure Scan where
  depth : Int
  start : Nat
  next : Nat
  ended : List (Nat × Nat)

namespace Scan

def initial : Scan := ⟨0, 0, 0, []⟩

/-- What a scan makes of the next byte; there is none at the end. -/
def step (bytes : List UInt8) (s : Scan) : Option Scan :=
  match bytes[s.next]? with
  | none => none
  | some b =>
    let ahead := bytes[s.next + 1]?
    if b = '-'.toUInt8 ∧ ahead = some '>'.toUInt8 then some { s with next := s.next + 2 }
    else if b = '<'.toUInt8 then some { s with depth := s.depth + 1, next := s.next + 1 }
    else if b = '>'.toUInt8 then some { s with depth := s.depth - 1, next := s.next + 1 }
    else if b = ':'.toUInt8 ∧ s.depth = 0 ∧ ahead = some ':'.toUInt8 then
      let ended := s.ended ++ [(s.start, s.next)]
      some { s with start := s.next + 2, next := s.next + 2, ended }
    else some { s with next := s.next + 1 }

/-- The segments of a scan that has come to the end. -/
def ranges (size : Nat) (s : Scan) : List (Nat × Nat) := s.ended ++ [(s.start, size)]

/-- A scan makes so many steps from here and comes to the end there. -/
inductive Ends (bytes : List UInt8) : Nat → Scan → Scan → Prop
  | here {s} : step bytes s = none → Ends bytes 0 s s
  | later {n s t u} : step bytes s = some t → Ends bytes n t u → Ends bytes (n + 1) s u

/-! ### Bytes -/

variable {bytes : List UInt8} {b : UInt8} {c d : Char} {s pre post : List Char} {t u : Scan}
  {n k start next : Nat} {depth : Int} {ended : List (Nat × Nat)}

def encode (s : List Char) : List UInt8 := s.flatMap String.utf8EncodeChar

theorem encode_append (s t : List Char) : encode (s ++ t) = encode s ++ encode t :=
  List.flatMap_append

theorem length_encode_append (s t : List Char) :
    (encode (s ++ t)).length = (encode s).length + (encode t).length := by
  rw [encode_append, List.length_append]

theorem mem_encode_singleton : b ∈ encode [c] ↔ b ∈ String.utf8EncodeChar c := by
  simp [encode]

theorem encode_toList (text : String) : encode text.toList = text.toUTF8.data.toList := by
  have hbytes : text.toList.utf8Encode = text.toByteArray := String.utf8Encode_toList
  rw [String.toUTF8_eq_toByteArray, ← hbytes, List.utf8Encode, List.data_toByteArray]
  rfl

theorem getElem?_encode (pre post : List Char) (i : Nat) :
    (encode (pre ++ post))[(encode pre).length + i]? = (encode post)[i]? := by
  rw [encode_append, List.getElem?_append_right (Nat.le_add_right _ _), Nat.add_sub_cancel_left]

/-- A character of ASCII is one byte. -/
theorem encode_ascii (hc : c.toNat < 128) : encode (c :: s) = c.toUInt8 :: encode s := by
  have hsize : c.utf8Size = 1 := by
    rw [Char.utf8Size_eq_one_iff, UInt32.le_iff_toNat_le]
    exact Nat.le_of_lt_succ hc
  rw [encode, List.flatMap_cons, String.utf8EncodeChar_eq_singleton hsize]
  rfl

theorem toUInt8_eq_iff (hc : c.toNat < 128) (hd : d.toNat < 128) :
    c.toUInt8 = d.toUInt8 ↔ c = d := by
  refine ⟨fun h => ?_, fun h => h ▸ rfl⟩
  have hnat : c.toNat % 256 = d.toNat % 256 := congrArg UInt8.toNat h
  rw [Nat.mod_eq_of_lt (by omega), Nat.mod_eq_of_lt (by omega)] at hnat
  exact Char.toNat_inj.mp hnat

/-- Other characters have no byte in common with ASCII. -/
theorem le_of_mem_utf8EncodeChar (hc : 128 ≤ c.toNat) (hb : b ∈ String.utf8EncodeChar c) :
    128 ≤ b.toNat := by
  have hval : 128 ≤ c.val.toNat := hc
  unfold String.utf8EncodeChar at hb
  simp only at hb
  split at hb
  · omega
  · split at hb
    · simp only [List.mem_cons, List.not_mem_nil, or_false] at hb
      rcases hb with rfl | rfl <;> simp <;> omega
    · split at hb
      · simp only [List.mem_cons, List.not_mem_nil, or_false] at hb
        rcases hb with rfl | rfl | rfl <;> simp <;> omega
      · simp only [List.mem_cons, List.not_mem_nil, or_false] at hb
        rcases hb with rfl | rfl | rfl | rfl <;> simp <;> omega

theorem ne_toUInt8 (hb : 128 ≤ b.toNat) (hd : d.toNat < 128) : b ≠ d.toUInt8 := by
  rintro rfl
  have hnat : d.toUInt8.toNat = d.toNat % 256 := rfl
  omega

/-- The first byte tells the first character, if that is one of ASCII. -/
theorem head?_encode_iff (hd : d.toNat < 128) :
    (encode s)[0]? = some d.toUInt8 ↔ s.head? = some d := by
  cases s with
  | nil => simp [encode]
  | cons c s =>
    by_cases hc : c.toNat < 128
    · simp [encode_ascii hc, toUInt8_eq_iff hc hd]
    · obtain ⟨b, r, hbr⟩ := List.exists_cons_of_ne_nil
        (String.utf8EncodeChar_ne_nil : String.utf8EncodeChar c ≠ [])
      have hb : b ≠ d.toUInt8 :=
        ne_toUInt8 (le_of_mem_utf8EncodeChar (by omega) (hbr ▸ List.mem_cons_self)) hd
      have hne : c ≠ d := by
        rintro rfl
        exact hc hd
      simp [encode, hbr, hb, hne]

/-! ### Steps -/

theorem step_none (h : bytes.length ≤ t.next) : step bytes t = none := by
  rw [step, List.getElem?_eq_none h]

/-- A byte of a character beyond ASCII is passed over. -/
theorem step_high (h : bytes[t.next]? = some b) (hb : 128 ≤ b.toNat) :
    step bytes t = some { t with next := t.next + 1 } := by
  have hne (d : Char) (hd : d.toNat < 128) : b ≠ d.toUInt8 := ne_toUInt8 hb hd
  rw [step, h]
  simp only [hne '-' (by decide), hne '<' (by decide), hne '>' (by decide), hne ':' (by decide),
    false_and, if_false]

/-- What a scan does at a character of ASCII depends on the next character only. -/
theorem step_ascii (hc : c.toNat < 128) (ha : ¬ (c = '-' ∧ post.head? = some '>'))
    (hd : ¬ (depth = 0 ∧ c = ':' ∧ post.head? = some ':')) :
    step (encode (pre ++ c :: post)) ⟨depth, start, (encode pre).length, ended⟩ =
      some ⟨depthAfter depth c, start, (encode pre).length + 1, ended⟩ := by
  have hbyte := getElem?_encode pre (c :: post) 0
  have hahead := getElem?_encode pre (c :: post) 1
  rw [encode_ascii hc] at hbyte hahead
  simp only [Nat.add_zero, List.getElem?_cons_zero, List.getElem?_cons_succ] at hbyte hahead
  have hcolons : ¬ (c = ':' ∧ depth = 0 ∧ post.head? = some ':') :=
    fun h => hd ⟨h.2.1, h.1, h.2.2⟩
  rw [step]
  simp only [hbyte, hahead, head?_encode_iff, toUInt8_eq_iff hc, show '-'.toNat < 128 by decide,
    show '<'.toNat < 128 by decide, show '>'.toNat < 128 by decide, show ':'.toNat < 128 by decide,
    if_neg ha, if_neg hcolons, depthAfter]
  split
  · rfl
  · split <;> rfl

theorem step_arrow :
    step (encode (pre ++ '-' :: '>' :: post)) ⟨depth, start, (encode pre).length, ended⟩ =
      some ⟨depth, start, (encode pre).length + 2, ended⟩ := by
  have hbyte := getElem?_encode pre ('-' :: '>' :: post) 0
  have hahead := getElem?_encode pre ('-' :: '>' :: post) 1
  simp only [encode_ascii (show '-'.toNat < 128 by decide), Nat.add_zero, List.getElem?_cons_zero,
    List.getElem?_cons_succ, encode_ascii (show '>'.toNat < 128 by decide)] at hbyte hahead
  rw [step]
  simp only [hbyte, hahead, and_self, if_true]

theorem step_colons :
    step (encode (pre ++ ':' :: ':' :: post)) ⟨0, start, (encode pre).length, ended⟩ =
      some ⟨0, (encode pre).length + 2, (encode pre).length + 2,
        ended ++ [(start, (encode pre).length)]⟩ := by
  have hbyte := getElem?_encode pre (':' :: ':' :: post) 0
  have hahead := getElem?_encode pre (':' :: ':' :: post) 1
  simp only [encode_ascii (show ':'.toNat < 128 by decide), Nat.add_zero, List.getElem?_cons_zero,
    List.getElem?_cons_succ] at hbyte hahead
  have hne (d : Char) (hd : d.toNat < 128) (h : ':' ≠ d) : ':'.toUInt8 ≠ d.toUInt8 :=
    fun he => h ((toUInt8_eq_iff (by decide) hd).mp he)
  rw [step]
  simp only [hbyte, hahead, hne '-' (by decide) (by decide), hne '<' (by decide) (by decide),
    hne '>' (by decide) (by decide), false_and, and_self, if_false, if_true]

/-- Bytes of characters beyond ASCII are passed over, however many they are. -/
theorem ends_skip (hk : ∀ i < k, ∃ b, bytes[next + i]? = some b ∧ 128 ≤ b.toNat)
    (h : Ends bytes n ⟨depth, start, next + k, ended⟩ u) :
    Ends bytes (n + k) ⟨depth, start, next, ended⟩ u := by
  induction k generalizing next with
  | zero => exact h
  | succ k ih =>
    obtain ⟨b, hat, hb⟩ := hk 0 (by omega)
    have hrest : Ends bytes (n + k) ⟨depth, start, next + 1, ended⟩ u := by
      apply ih
      · intro i hi
        have hnext := hk (i + 1) (by omega)
        rwa [← Nat.add_assoc, Nat.add_right_comm] at hnext
      · rwa [Nat.add_assoc, Nat.add_comm 1 k]
    exact .later (step_high hat hb) hrest

theorem depthAfter_high (hc : 128 ≤ c.toNat) : depthAfter depth c = depth := by
  have hopen : c ≠ '<' := by
    rintro rfl
    exact absurd hc (by decide)
  have hclose : c ≠ '>' := by
    rintro rfl
    exact absurd hc (by decide)
  rw [depthAfter, if_neg hopen, if_neg hclose]

/-- A scan goes on from a character, whatever its length, at the next one. -/
theorem ends_char (ha : ¬ (c = '-' ∧ post.head? = some '>'))
    (hd : ¬ (depth = 0 ∧ c = ':' ∧ post.head? = some ':'))
    (h : Ends (encode (pre ++ c :: post)) n
      ⟨depthAfter depth c, start, (encode (pre ++ [c])).length, ended⟩ u) :
    ∃ k ≤ (encode [c]).length,
      Ends (encode (pre ++ c :: post)) (n + k) ⟨depth, start, (encode pre).length, ended⟩ u := by
  rw [length_encode_append] at h
  by_cases hc : c.toNat < 128
  · rw [encode_ascii hc] at h
    exact ⟨1, by rw [encode_ascii hc]; exact Nat.le_add_left _ _, .later (step_ascii hc ha hd) h⟩
  · rw [depthAfter_high (by omega)] at h
    refine ⟨(encode [c]).length, Nat.le_refl _, ends_skip ?_ h⟩
    intro i hi
    have hat : (encode (pre ++ [c] ++ post))[(encode pre).length + i]? = (encode [c])[i]? := by
      rw [List.append_assoc, getElem?_encode, encode_append, List.getElem?_append_left hi]
    rw [List.append_assoc] at hat
    refine ⟨(encode [c])[i], hat.trans (List.getElem?_eq_getElem hi), ?_⟩
    exact le_of_mem_utf8EncodeChar (by omega) (mem_encode_singleton.mp (List.getElem_mem hi))

/-! ### Runs -/

/-- A range of bytes of a text lies between two of its characters and holds these characters. -/
structure Slice (text : String) (r : Nat × Nat) (p : List Char) : Prop where
  first : String.Pos.Raw.IsValid text ⟨r.1⟩
  last : String.Pos.Raw.IsValid text ⟨r.2⟩
  ordered : r.1 ≤ r.2
  held : text.toUTF8.data.toList.extract r.1 r.2 = encode p

theorem length_encode_toList (text : String) : (encode text.toList).length = text.utf8ByteSize := by
  rw [encode_toList]
  rfl

/-- The bytes before a character end where a character does. -/
theorem isValid_length_encode {text : String} (h : text.toList = pre ++ post) :
    String.Pos.Raw.IsValid text ⟨(encode pre).length⟩ := by
  rw [String.Pos.Raw.isValid_iff_exists_append]
  refine ⟨String.ofList pre, String.ofList post, ?_, ?_⟩
  · rw [← String.ofList_append, ← h, String.ofList_toList]
  · have hlen := length_encode_toList (String.ofList pre)
    rw [String.toList_ofList] at hlen
    exact String.Pos.Raw.ext hlen

theorem slice_of_append {text : String} (h : text.toList = pre ++ s ++ post) :
    Slice text ((encode pre).length, (encode (pre ++ s)).length) s where
  first := isValid_length_encode (h.trans (List.append_assoc _ _ _))
  last := isValid_length_encode h
  ordered := by
    rw [length_encode_append]
    exact Nat.le_add_right _ _
  held := by
    rw [← encode_toList, h, encode_append, encode_append, List.append_assoc,
      List.extract_eq_take_drop, List.length_append, Nat.add_sub_cancel_left, List.drop_left,
      List.take_left]

/-- A scan comes to the end in no more steps than there are bytes before it, and the segments that
are still to end are these. -/
def Finds (text : String) (s : Scan) (rest : List Char) (parts : List (List Char)) : Prop :=
  ∃ n u rs, n ≤ (encode rest).length ∧ Ends (encode text.toList) n s u ∧
    u.ranges (encode text.toList).length = s.ended ++ rs ∧ List.Forall₂ (Slice text) rs parts

/-- The scan between two characters, the current segment holding those before it in reverse. -/
def between (depth : Int) (pre seen : List Char) (ended : List (Nat × Nat)) : Scan :=
  ⟨depth, (encode pre).length, (encode (pre ++ seen.reverse)).length, ended⟩

variable {text : String} {seen : List Char} {parts : List (List Char)}

theorem finds_end (hw : text.toList = pre ++ seen.reverse) :
    Finds text (between depth pre seen ended) [] [seen.reverse] := by
  have hslice : Slice text ((encode pre).length, (encode (pre ++ seen.reverse)).length)
      seen.reverse := slice_of_append (hw.trans (List.append_nil _).symm)
  rw [← hw] at hslice
  refine ⟨0, _, _, Nat.le_refl _, .here (step_none ?_), rfl, .cons hslice .nil⟩
  rw [hw]
  exact Nat.le_refl _

theorem finds_arrow (hw : text.toList = pre ++ seen.reverse ++ '-' :: '>' :: s)
    (h : Finds text (between depth pre ('>' :: '-' :: seen) ended) s parts) :
    Finds text (between depth pre seen ended) ('-' :: '>' :: s) parts := by
  obtain ⟨n, u, rs, hn, hends, hranges, hslices⟩ := h
  have hstep : step (encode text.toList) (between depth pre seen ended) =
      some (between depth pre ('>' :: '-' :: seen) ended) := by
    have hnext : (encode (pre ++ ('>' :: '-' :: seen).reverse)).length =
        (encode (pre ++ seen.reverse)).length + 2 := by
      rw [List.reverse_cons, List.reverse_cons, List.append_assoc, ← List.append_assoc,
        length_encode_append]
      rfl
    rw [hw, between, between, hnext]
    exact step_arrow
  refine ⟨n + 1, u, rs, ?_, .later hstep hends, hranges, hslices⟩
  rw [encode_ascii (by decide), encode_ascii (by decide), List.length_cons, List.length_cons]
  omega

/-- Two colons outside brackets end a segment. -/
theorem finds_colons (hw : text.toList = pre ++ seen.reverse ++ ':' :: ':' :: s)
    (h : ∀ ended, Finds text (between 0 (pre ++ seen.reverse ++ [':', ':']) [] ended) s parts) :
    Finds text (between 0 pre seen ended) (':' :: ':' :: s) (seen.reverse :: parts) := by
  let cut := ((encode pre).length, (encode (pre ++ seen.reverse)).length)
  obtain ⟨n, u, rs, hn, hends, hranges, hslices⟩ := h (ended ++ [cut])
  have hstep : step (encode text.toList) (between 0 pre seen ended) =
      some (between 0 (pre ++ seen.reverse ++ [':', ':']) [] (ended ++ [cut])) := by
    have hnext : (encode (pre ++ seen.reverse ++ [':', ':'])).length =
        (encode (pre ++ seen.reverse)).length + 2 := by
      rw [length_encode_append]
      rfl
    rw [hw, between, between, List.reverse_nil, List.append_nil, hnext]
    exact step_colons
  refine ⟨n + 1, u, cut :: rs, ?_, .later hstep hends, ?_, .cons (slice_of_append hw) hslices⟩
  · rw [encode_ascii (by decide), encode_ascii (by decide), List.length_cons, List.length_cons]
    omega
  · exact hranges.trans (List.append_assoc _ _ _)

theorem finds_char (hw : text.toList = pre ++ seen.reverse ++ c :: s)
    (ha : ¬ (c = '-' ∧ s.head? = some '>'))
    (hd : ¬ (depth = 0 ∧ c = ':' ∧ s.head? = some ':'))
    (h : Finds text (between (depthAfter depth c) pre (c :: seen) ended) s parts) :
    Finds text (between depth pre seen ended) (c :: s) parts := by
  obtain ⟨n, u, rs, hn, hends, hranges, hslices⟩ := h
  rw [between, List.reverse_cons, ← List.append_assoc, hw] at hends
  obtain ⟨k, hk, hchar⟩ := ends_char ha hd hends
  rw [← hw] at hchar
  have hlen : (encode (c :: s)).length = (encode [c]).length + (encode s).length :=
    length_encode_append [c] s
  exact ⟨n + k, u, rs, by omega, hchar, hranges, hslices⟩

/-- A scan finds the segments that are found by characters. -/
theorem finds_segments (text : String) (depth : Int) (seen rest : List Char) :
    ∀ pre ended, text.toList = pre ++ seen.reverse ++ rest →
      Finds text (between depth pre seen ended) rest (segmentsFrom depth seen rest) := by
  fun_induction segmentsFrom depth seen rest with
  | case1 depth seen =>
    intro pre ended hw
    exact finds_end (hw.trans (List.append_nil _))
  | case2 depth seen s ih =>
    intro pre ended hw
    exact finds_arrow hw (ih pre ended (by simp [hw]))
  | case3 depth seen c d s _ h ih =>
    intro pre ended hw
    obtain ⟨rfl, rfl, rfl⟩ := h
    exact finds_colons hw fun ended => ih _ ended (by simp [hw])
  | case4 depth seen c d s ha h _ ih =>
    intro pre ended hw
    apply finds_char hw
    · exact fun hc => ha hc.1 (Option.some.inj hc.2)
    · exact fun hc => h ⟨hc.1, hc.2.1, Option.some.inj hc.2.2⟩
    · exact ih pre ended (by simp [hw])
  | case5 depth seen c =>
    intro pre ended hw
    apply finds_char hw
    · simp
    · simp
    · exact finds_end (by simp [hw])

end Scan

/-! ### Names -/

/-- A name is found behind any symbol whose brackets are balanced and before any number of
closures. The scan that divides a text into segments ends on any text, in no more steps than the
text has bytes, and cuts it between characters only. -/
theorem short_nested :
    (∀ p m k, Balanced p → p.getLast? ≠ some ':' → IsName m →
      short (extendClosures (extend p m) k) = m) ∧
      ∀ text : String, ∃ n final parts, n ≤ text.utf8ByteSize ∧
        Scan.Ends text.toUTF8.data.toList n Scan.initial final ∧
        List.Forall₂ (Scan.Slice text) (final.ranges text.utf8ByteSize) parts ∧
        parts.filter (fun q => !q.isEmpty) = segments text.toList := by
  constructor
  · intro p m k hb hp hm
    exact short_extend hb hp hm k
  · intro text
    obtain ⟨n, u, rs, hn, hends, hranges, hslices⟩ :=
      Scan.finds_segments text 0 [] text.toList [] [] rfl
    rw [Scan.encode_toList] at hends
    rw [Scan.length_encode_toList] at hn hranges
    refine ⟨n, u, segmentsFrom 0 [] text.toList, hn, hends, ?_, rfl⟩
    rw [hranges]
    exact hslices

/-- A method of a qualified type whose parameters hold a function type, inside two closures. -/
theorem short_nested_sample :
    short "<a::B as c::D<fn() -> E>>::place::\x7b\x7bclosure\x7d\x7d::\x7b\x7bclosure\x7d\x7d".toList =
      "place".toList := by
  have hsymbol : extendClosures (extend "<a::B as c::D<fn() -> E>>".toList "place".toList) 2 =
      "<a::B as c::D<fn() -> E>>::place::\x7b\x7bclosure\x7d\x7d::\x7b\x7bclosure\x7d\x7d".toList := by
    decide +kernel
  have hbalanced : Balanced "<a::B as c::D<fn() -> E>>".toList := by decide +kernel
  have hname : IsName "place".toList := by decide +kernel
  rw [← hsymbol]
  exact short_nested.1 _ _ 2 hbalanced (by decide +kernel) hname

end Retrace.Symbol
