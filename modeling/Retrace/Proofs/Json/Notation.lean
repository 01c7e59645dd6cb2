import Retrace.Proofs.Json.Restores

/-! The texts that stand for a document: blanks may stand between its parts, and a character between
quotes may stand there itself or as an escape. -/
namespace Retrace.Json

open Retrace.Text Reader

variable {α β : Type} {c : Char} {s t u v g : List Char} {parts : List (List Char)} {r : Input}
  {d : Json} {n m : Nat}

/-! ### Blanks -/

/-- Blanks between the parts of a document. -/
def Gap (g : List Char) : Prop := ∀ c ∈ g, isGap (some c) = true

theorem gap_nil : Gap [] := nofun

/-- A text with blanks around it. -/
def Padded (P : List Char → Prop) (v : List Char) : Prop :=
  ∃ g u g', Gap g ∧ Gap g' ∧ P u ∧ v = g ++ u ++ g'

/-- The reader passes over blanks before it looks at anything. -/
def Lenient (p : Reader α) : Prop := ∀ g r, Gap g → p (g.map some ++ r) = p r

theorem lenient_next : Lenient next := by
  intro g r hg
  induction g with
  | nil => rfl
  | cons c g ih =>
    obtain ⟨hc, hg⟩ := List.forall_mem_cons.mp hg
    have hnext : next (some c :: (g.map some ++ r)) = next (g.map some ++ r) := by
      simp [next, hc]
    exact hnext.trans (ih hg)

theorem Lenient.bind {p : Reader α} (h : Lenient p) (f : α → Reader β) : Lenient (p >>= f) := by
  intro g r hg
  show (p (g.map some ++ r) >>= fun x => f x.1 x.2) = (p r >>= fun x => f x.1 x.2)
  rw [h g r hg]

theorem Lenient.settled {p : Reader α} (h : Lenient p) : Lenient (settled p) := by
  intro g r hg
  simp only [Reader.settled, h g r hg]

/-- A value may end before blanks, too. -/
theorem atEnd_gap (hg : Gap g) (hr : AtEnd r) : AtEnd (g.map some ++ r) := by
  cases g with
  | nil => exact hr
  | cons c g =>
    intro p hp
    obtain rfl : some c = p := by simpa using hp
    exact Or.inr (Or.inr (Or.inr (hg c List.mem_cons_self)))

/-! ### Texts -/

/-- Four hexadecimal digits that spell a code unit. -/
inductive CodeUnit : List Char → Nat → Prop
  | mk {a b c d : Char} {i j k l : Nat} (ha : hexValue? a = some i) (hb : hexValue? b = some j)
    (hc : hexValue? c = some k) (hd : hexValue? d = some l) :
    CodeUnit [a, b, c, d] (((i * 16 + j) * 16 + k) * 16 + l)

/-- What may stand for a character between quotes: the character, unless it is a quote, a backslash
or a control character; a letter after a backslash; or the numbers of the one or two code units that
the character takes. -/
inductive CharText : Char → List Char → Prop
  | plain {c : Char} (hc : ¬c.toNat < 32) (hq : c ≠ '"') (hb : c ≠ '\\') : CharText c [c]
  | letter {c l : Char} (h : letterChar? l = some c) : CharText c ['\\', l]
  | unit {c : Char} {u : List Char} (h : CodeUnit u c.toNat) : CharText c ('\\' :: 'u' :: u)
  | pair {c : Char} {u v : List Char} {n m : Nat} (hu : CodeUnit u n) (hv : CodeUnit v m)
    (hn : isFirstHalf n = true) (hm : isSecondHalf m = true)
    (hc : c.toNat = (n - 0xD800) * 1024 + (m - 0xDC00) + 0x10000) :
    CharText c ('\\' :: 'u' :: (u ++ '\\' :: 'u' :: v))

/-- What may stand for a text. -/
def QuotedText (s u : List Char) : Prop :=
  ∃ parts, List.Forall₂ CharText s parts ∧ u = '"' :: parts.flatten ++ ['"']

namespace Reader

theorem codeUnit_eq (h : CodeUnit u n) : codeUnit (u.map some ++ r) = .ok (n, r) := by
  cases h with
  | mk ha hb hc hd => simp [codeUnit, ha, hb, hc, hd]

theorem numbered_unit (h : CodeUnit u c.toNat) : numbered (u.map some ++ r) = .ok (c, r) := by
  have hvalid : c.toNat < 0xD800 ∨ 0xDFFF < c.toNat := c.valid.imp id And.left
  have hsecond : isSecondHalf c.toNat = false := by
    simp only [isSecondHalf, Bool.and_eq_false_iff, decide_eq_false_iff_not]
    omega
  have hfirst : isFirstHalf c.toNat = false := by
    simp only [isFirstHalf, Bool.and_eq_false_iff, decide_eq_false_iff_not]
    omega
  rw [numbered, bind_eq (codeUnit_eq h)]
  simp [hsecond, hfirst, pure_eq]

theorem numbered_pair (hu : CodeUnit u n) (hv : CodeUnit v m) (hn : isFirstHalf n = true)
    (hm : isSecondHalf m = true)
    (hc : c.toNat = (n - 0xD800) * 1024 + (m - 0xDC00) + 0x10000) :
    numbered ((u ++ '\\' :: 'u' :: v).map some ++ r) = .ok (c, r) := by
  have hsecond : isSecondHalf n = false := by
    simp only [isFirstHalf, Bool.and_eq_true, decide_eq_true_eq] at hn
    simp only [isSecondHalf, Bool.and_eq_false_iff, decide_eq_false_iff_not]
    omega
  have hmark (e : Char) (s : Input) : pairMark e (some e :: s) = .ok ((), s) := by simp [pairMark]
  rw [List.map_append, List.append_assoc, numbered, bind_eq (codeUnit_eq hu), hsecond, hn]
  simp only [Bool.false_eq_true, if_false, if_true, List.map_cons, List.cons_append]
  rw [bind_eq (hmark _ _), bind_eq (hmark _ _), bind_eq (codeUnit_eq hv), if_pos hm, ← hc,
    Char.ofNat_toNat]
  rfl

/-- One turn of the loop over the pieces of a text takes what stands for a character. -/
theorem piecesFrom_charText (h : CharText c u) (fuel : Nat) (seen : List Piece) :
    piecesFrom (fuel + 1) seen (u.map some ++ r) = piecesFrom fuel (some c :: seen) r := by
  cases h with
  | plain hc hq hb => simp [piecesFrom, hc, hq, hb]
  | letter h => simp [piecesFrom, escape_letter (r := r) _ h, bind, Except.bind]
  | unit h => simp [piecesFrom, escape, numbered_unit (r := r) h, bind, Except.bind]
  | pair hu hv hn hm hc =>
    have hpair := numbered_pair (r := r) hu hv hn hm hc
    simp only [List.map_append, List.map_cons, List.append_assoc, List.cons_append] at hpair
    simp [piecesFrom, escape, hpair, bind, Except.bind]

theorem charText_length_pos (h : CharText c u) : 0 < u.length := by
  cases h <;> simp

theorem length_le_of_charTexts (h : List.Forall₂ CharText s parts) :
    s.length ≤ parts.flatten.length := by
  induction h with
  | nil => simp
  | cons h _ ih =>
    have := charText_length_pos h
    simp only [List.length_cons, List.flatten_cons, List.length_append]
    omega

theorem piecesFrom_charTexts (h : List.Forall₂ CharText s parts) (seen : List Piece) (fuel : Nat)
    (hf : s.length < fuel) :
    piecesFrom fuel seen (parts.flatten.map some ++ some '"' :: r) =
      .ok (seen.reverse ++ s.map some, r) := by
  induction h generalizing fuel seen with
  | nil =>
    obtain ⟨fuel, rfl⟩ : ∃ k, fuel = k + 1 := ⟨fuel - 1, by simp at hf; omega⟩
    simp [piecesFrom]
  | cons h _ ih =>
    obtain ⟨fuel, rfl⟩ : ∃ k, fuel = k + 1 := ⟨fuel - 1, by omega⟩
    rw [List.flatten_cons, List.map_append, List.append_assoc, piecesFrom_charText h,
      ih _ _ (by simpa using hf)]
    simp

/-- What stands for a text is read as that text. -/
theorem text_charTexts (h : List.Forall₂ CharText s parts) :
    text (parts.flatten.map some ++ some '"' :: r) = .ok (String.ofList s, r) := by
  have hle := length_le_of_charTexts h
  have hp := piecesFrom_charTexts (r := r) h []
    ((parts.flatten.map some ++ some '"' :: r).length + 1)
    (by simp only [List.length_append, List.length_map, List.length_cons]; omega)
  simp only [text]
  rw [hp]
  simp [bind, Except.bind, spelled?_map_some]

theorem map_quoted (parts : List (List Char)) :
    ('"' :: parts.flatten ++ ['"']).map some ++ r =
      some '"' :: (parts.flatten.map some ++ some '"' :: r) := by
  simp

end Reader

/-! ### Numbers -/

namespace Numeral

/-- One or more digits. -/
structure Digits (ds : List Char) : Prop where
  nonempty : ds ≠ []
  digits : ∀ c ∈ ds, c.isDigit

/-- The fraction of a number, if it has one. -/
def Fraction (u : List Char) : Prop := u = [] ∨ ∃ ds, Digits ds ∧ u = '.' :: ds

/-- The exponent of a number, if it has one. -/
def Exponent (u : List Char) : Prop :=
  u = [] ∨ ∃ l sign ds, l ∈ ['e', 'E'] ∧ sign ∈ [[], ['+'], ['-']] ∧ Digits ds ∧ u = l :: sign ++ ds

/-- A number as it may be written. -/
def Written (u : List Char) : Prop :=
  ∃ sign ws f e, sign ∈ [[], ['-']] ∧ Whole ws ∧ Fraction f ∧ Exponent e ∧
    u = sign ++ (ws ++ (f ++ e))

end Numeral

/-! ### Documents -/

/-- Parts with commas between them stand between two marks. -/
def Enclosed (opener : Char) (parts : List (List Char)) (closer : Char) (u : List Char) : Prop :=
  (parts ≠ [] ∧ u = opener :: join [','] parts ++ [closer]) ∨
    ∃ g, Gap g ∧ parts = [] ∧ u = opener :: g ++ [closer]

mutual
/-- The texts that stand for a document, without blanks before and after them. -/
def SpelledBy : Json → List Char → Prop
  | null, u => u = "null".toList
  | truth b, u => u = (if b then "true" else "false").toList
  | number t, u => u = t.toList ∧ Numeral.Written u
  | text s, u => QuotedText s.toList u
  | list items, u => ∃ parts, SpelledItems items parts ∧ Enclosed '[' parts ']' u
  | record fields, u =>
    ∃ parts, SpelledFields fields parts ∧ Enclosed (Char.ofNat 123) parts (Char.ofNat 125) u

/-- Texts that stand for the items of a list. -/
def SpelledItems : List Json → List (List Char) → Prop
  | [], parts => parts = []
  | d :: ds, parts =>
    ∃ v rest, Padded (SpelledBy d) v ∧ SpelledItems ds rest ∧ parts = v :: rest

/-- Texts that stand for the fields of a record. -/
def SpelledFields : List (String × Json) → List (List Char) → Prop
  | [], parts => parts = []
  | (name, d) :: fs, parts =>
    ∃ k v rest, Padded (QuotedText name.toList) k ∧ Padded (SpelledBy d) v ∧
      SpelledFields fs rest ∧ parts = (k ++ ':' :: v) :: rest
end

/-- The characters that the text of a document may start with. -/
def Leads : Json → Char → Prop
  | null, c => c = 'n'
  | truth b, c => c = if b then 't' else 'f'
  | number _, c => c = '-' ∨ c.isDigit = true
  | text _, c => c = '"'
  | list _, c => c = '['
  | record _, c => c = Char.ofNat 123

theorem Enclosed.head {o e : Char} (h : Enclosed o parts e u) : ∃ v, u = o :: v := by
  rcases h with ⟨-, rfl⟩ | ⟨g, -, -, rfl⟩
  · exact ⟨_, rfl⟩
  · exact ⟨_, rfl⟩

theorem SpelledBy.head (h : d.SpelledBy u) : ∃ c v, u = c :: v ∧ d.Leads c := by
  cases d with
  | null => exact ⟨'n', _, h, rfl⟩
  | truth b => cases b <;> exact ⟨_, _, h, rfl⟩
  | number t =>
    obtain ⟨-, sign, ws, f, e, hsign, hw, -, -, rfl⟩ := h
    obtain ⟨c, cs, hcs, hc⟩ := hw.head (f ++ e)
    simp only [List.mem_cons, List.not_mem_nil, or_false] at hsign
    rcases hsign with rfl | rfl
    · exact ⟨c, cs, hcs, Or.inr hc⟩
    · exact ⟨'-', _, rfl, Or.inl rfl⟩
  | text s =>
    obtain ⟨parts, -, rfl⟩ := h
    exact ⟨'"', _, rfl, rfl⟩
  | list items =>
    obtain ⟨parts, -, h⟩ := h
    obtain ⟨v, rfl⟩ := h.head
    exact ⟨'[', v, rfl, rfl⟩
  | record fields =>
    obtain ⟨parts, -, h⟩ := h
    obtain ⟨v, rfl⟩ := h.head
    exact ⟨_, v, rfl, rfl⟩

theorem Leads.not_gap (h : d.Leads c) : isGap (some c) = false ∧ c ≠ ']' := by
  cases d with
  | null => subst h; decide
  | truth b => cases b <;> (subst h; decide)
  | number t => exact Decoder.not_gap_of_number h
  | text s => subst h; decide
  | list items => subst h; decide
  | record fields => subst h; decide

theorem SpelledBy.starts (h : d.SpelledBy u) : Starts u := by
  obtain ⟨c, v, rfl, hc⟩ := h.head
  exact ⟨c, v, rfl, hc.not_gap⟩

/-! ### Written forms -/

theorem codeUnit_control {n : Nat} (h : n < 32) :
    CodeUnit ['0', '0', hexDigit (n / 16), hexDigit (n % 16)] n := by
  have hv : ∀ n < 32, hexValue? (hexDigit (n / 16)) = some (n / 16) ∧
      hexValue? (hexDigit (n % 16)) = some (n % 16) := by decide
  have hz : hexValue? '0' = some 0 := by decide
  have hn : ((0 * 16 + 0) * 16 + n / 16) * 16 + n % 16 = n := by omega
  have hunit := CodeUnit.mk hz hz (hv n h).1 (hv n h).2
  rwa [hn] at hunit

/-- An escape stands for the character that it escapes. -/
theorem charText_escape {letters : Letters} (hl : Sound letters) (c : Char) :
    CharText c (escape letters c) := by
  unfold escape
  by_cases hq : c = '"'
  · subst hq
    exact .letter (by decide)
  by_cases hb : c = '\\'
  · subst hb
    exact .letter (by decide)
  rw [if_neg hq, if_neg hb]
  cases hm : letters.lookup c with
  | some l => exact .letter (hl c l hm)
  | none =>
    by_cases hc : c.toNat < 32
    · dsimp only
      rw [if_pos hc]
      exact .unit (codeUnit_control hc)
    · dsimp only
      rw [if_neg hc]
      exact .plain hc hq hb

theorem quotedText_quoteWith {letters : Letters} (hl : Sound letters) (s : List Char) :
    QuotedText s (quoteWith letters s) := by
  refine ⟨s.map (escape letters), ?_, by rw [quoteWith, List.flatMap_def]⟩
  rw [List.forall₂_map_right_iff]
  exact List.forall₂_same.mpr fun c _ => charText_escape hl c

theorem padded_self {P : List Char → Prop} (h : P u) : Padded P u :=
  ⟨[], u, [], gap_nil, gap_nil, h, by simp⟩

theorem enclosed_join (o e : Char) (parts : List (List Char)) :
    Enclosed o parts e (o :: join [','] parts ++ [e]) := by
  cases parts with
  | nil => exact Or.inr ⟨[], gap_nil, rfl, rfl⟩
  | cons v parts => exact Or.inl ⟨List.cons_ne_nil _ _, rfl⟩

mutual
/-- The numbers in a document are numbers. -/
def Numbered : Json → Prop
  | number t => Numeral.Written t.toList
  | list items => NumberedItems items
  | record fields => NumberedFields fields
  | null | truth _ | text _ => True

@[inherit_doc Numbered]
def NumberedItems : List Json → Prop
  | [] => True
  | d :: ds => Numbered d ∧ NumberedItems ds

@[inherit_doc Numbered]
def NumberedFields : List (String × Json) → Prop
  | [] => True
  | f :: fs => Numbered f.2 ∧ NumberedFields fs
end

mutual
/-- The written form of a document stands for it. -/
theorem spelledBy_render : (d : Json) → d.Numbered → d.SpelledBy d.render.toList
  | null, _ => rfl
  | truth b, _ => by cases b <;> rfl
  | number t, h => ⟨rfl, h⟩
  | text s, _ => by
    rw [render_text]
    exact quotedText_quoteWith sound_recordLetters s.toList
  | list items, h => by
    rw [render_list]
    exact ⟨_, spelledItems_render items h, enclosed_join _ _ _⟩
  | record fields, h => by
    rw [render_record]
    exact ⟨_, spelledFields_render fields h, enclosed_join _ _ _⟩

theorem spelledItems_render : (ds : List Json) → NumberedItems ds →
    SpelledItems ds (ds.map fun d => d.render.toList)
  | [], _ => rfl
  | d :: ds, h =>
    ⟨_, _, padded_self (spelledBy_render d h.1), spelledItems_render ds h.2, rfl⟩

theorem spelledFields_render : (fs : List (String × Json)) → NumberedFields fs →
    SpelledFields fs ((writtenFields fs).map fieldText)
  | [], _ => rfl
  | (name, d) :: fs, h =>
    ⟨_, _, _, padded_self (quotedText_quoteWith sound_recordLetters name.toList),
      padded_self (spelledBy_render d h.1), spelledFields_render fs h.2, rfl⟩
end

theorem written_nat (n : Nat) : Numeral.Written (toString n).toList :=
  ⟨[], (toString n).toList, [], [], by simp, toList_toString_nat n ▸ Numeral.whole_toDigits n,
    Or.inl rfl, Or.inl rfl, by simp⟩

end Retrace.Json
