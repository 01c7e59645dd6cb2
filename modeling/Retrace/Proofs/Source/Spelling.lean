import Mathlib.Data.Nat.Digits.Defs
import Retrace.Source.Literal

/-! How literals are spelled, and that a literal is read as what it spells. The one exception is a
raw literal of several lines that end with carriage returns: the returns belong to the ends of lines
and not to the text, but they are read as a part of it. -/
namespace Retrace.Source

open Text

/-! ### The grammar of literals -/

/-- Digits of a base, among which there may be underscores, with the values of the digits. -/
inductive Digits (base : Nat) : List Char → List Nat → Prop
  | nil : Digits base [] []
  | bar {s ds} : Digits base s ds → Digits base ('_' :: s) ds
  | digit {c d s ds} : hexValue? c = some d → d < base → Digits base s ds →
      Digits base (c :: s) (d :: ds)

/-- The number with such digits, the first of which is the highest. -/
def numeral (base : Nat) (ds : List Nat) : Nat := Nat.ofDigits base ds.reverse

/-- The letters of escapes with the characters they stand for. -/
def letterEscapes : List (Char × Char) :=
  [('n', '\n'), ('r', '\r'), ('t', '\t'), ('0', Char.ofNat 0), ('\\', '\\'), ('\'', '\''),
    ('"', '"')]

/-- What follows a backslash in a text, and the character that the escape stands for. -/
inductive CharEscape : List Char → Char → Prop
  | letter {l c} : (l, c) ∈ letterEscapes → CharEscape [l] c
  | ascii {hi lo ds} : Digits 16 [hi, lo] ds → ds.length = 2 → numeral 16 ds < 128 →
      CharEscape ['x', hi, lo] (Char.ofNat (numeral 16 ds))
  | codePoint {c s ds} : c ≠ '_' → Digits 16 (c :: s) ds → ds.length ≤ 6 →
      (numeral 16 ds).isValidChar →
      CharEscape ('u' :: Char.ofNat 123 :: (c :: s ++ [Char.ofNat 125]))
        (Char.ofNat (numeral 16 ds))

/-- What follows a backslash in a byte, and the number that the escape stands for. -/
inductive ByteEscape : List Char → Nat → Prop
  | letter {l c} : (l, c) ∈ letterEscapes → ByteEscape [l] c.toNat
  | hex {hi lo ds} : Digits 16 [hi, lo] ds → ds.length = 2 →
      ByteEscape ['x', hi, lo] (numeral 16 ds)

/-- Spaces, tabulators and ends of lines. -/
inductive Gap : List Char → Prop
  | nil : Gap []
  | blank {c s} : c ∈ [' ', '\t', '\n'] → Gap s → Gap (c :: s)
  | lineEnd {s} : Gap s → Gap ('\r' :: '\n' :: s)

/-- What follows an opening quote, up to and with the closing one, and the text in the quotes. A
backslash at the end of a line leaves out the end of the line and the blanks after it. -/
inductive Quoted : List Char → List Char → Prop
  | done : Quoted ['"'] []
  | plain {c s t} : c ∉ ['"', '\\', '\r'] → Quoted s t → Quoted (c :: s) (c :: t)
  | lineEnd {s t} : Quoted s t → Quoted ('\r' :: '\n' :: s) ('\n' :: t)
  | escape {e c s t} : CharEscape e c → Quoted s t → Quoted ('\\' :: (e ++ s)) (c :: t)
  | goesOn {g s t} : Gap g → (g.head? = some '\n' ∨ g.head? = some '\r') →
      (∀ c ∈ s.head?, c ∉ [' ', '\t', '\n', '\r']) → Quoted s t → Quoted ('\\' :: (g ++ s)) t

/-- What stands between the quotes of a raw literal with that many marks, and the text it is. -/
inductive RawBody (hashes : Nat) : List Char → List Char → Prop
  | nil : RawBody hashes [] []
  | plain {c s t} : c ≠ '\r' → (c = '"' → s.take hashes ≠ List.replicate hashes '#') →
      RawBody hashes s t → RawBody hashes (c :: s) (c :: t)
  | lineEnd {s t} : RawBody hashes s t → RawBody hashes ('\r' :: '\n' :: s) ('\n' :: t)

/-- A string literal and the text it stands for. -/
inductive StringLiteral : List Char → List Char → Prop
  | quoted {s t} : Quoted s t → StringLiteral ('"' :: s) t
  | raw {hashes s t} : hashes ≤ 255 → RawBody hashes s t →
      StringLiteral ('r' :: (List.replicate hashes '#' ++
        '"' :: (s ++ '"' :: List.replicate hashes '#'))) t

inductive CharLiteral : List Char → Char → Prop
  | plain {c} : c ∉ ['\\', '\'', '\n', '\r', '\t'] → CharLiteral ['\'', c, '\''] c
  | escape {e c} : CharEscape e c → CharLiteral ('\'' :: '\\' :: (e ++ ['\''])) c

inductive ByteLiteral : List Char → Nat → Prop
  | plain {c} : c ∉ ['\\', '\'', '\n', '\r', '\t'] → c.toNat < 128 →
      ByteLiteral ['b', '\'', c, '\''] c.toNat
  | escape {e n} : ByteEscape e n → ByteLiteral ('b' :: '\'' :: '\\' :: (e ++ ['\''])) n

def baseMarks : List (List Char × Nat) :=
  [([], 10), (['0', 'x'], 16), (['0', 'o'], 8), (['0', 'b'], 2)]

/-- The suffixes for the types of whole numbers, and no suffix at all. -/
def wholeSuffixes : List (List Char) :=
  ["", "i8", "i16", "i32", "i64", "i128", "isize", "u8", "u16", "u32", "u64", "u128",
    "usize"].map String.toList

/-- The literal of a whole number, and the number. A decimal one starts with a digit. -/
inductive WholeLiteral : List Char → Nat → Prop
  | mk {mark base s ds suffix} : (mark, base) ∈ baseMarks → suffix ∈ wholeSuffixes →
      Digits base s ds → ds ≠ [] → (base = 10 → s.head? ≠ some '_') →
      WholeLiteral (mark ++ (s ++ suffix)) (numeral base ds)

/-- A literal is steady if it is no raw literal with a carriage return. -/
def Steady (w : List Char) : Prop := w.head? = some 'r' → '\r' ∉ w

instance (w : List Char) : Decidable (Steady w) :=
  inferInstanceAs (Decidable (w.head? = some 'r' → '\r' ∉ w))

variable {s t u w e g rest : List Char} {c hi lo : Char} {n base v : Nat} {ds : List Nat}
  {suffix : List Char}

/-! ### Digits -/

theorem numeral_eq_foldl (base : Nat) (ds : List Nat) :
    numeral base ds = ds.foldl (fun v d => v * base + d) 0 := by
  rw [numeral, Nat.ofDigits_eq_foldr, List.foldr_reverse]
  congr
  funext v d
  rw [Nat.cast_id, Nat.mul_comm, Nat.add_comm]

theorem Digits.pair (h : Digits base [hi, lo] ds) (hlen : ds.length = 2) :
    ∃ a b, hexValue? hi = some a ∧ hexValue? lo = some b ∧ a < base ∧ b < base ∧
      numeral base ds = a * base + b := by
  cases h with
  | bar h =>
    cases h with
    | bar h => cases h; cases hlen
    | digit _ _ h => cases h; cases hlen
  | digit ha hlta h =>
    cases h with
    | bar h => cases h; cases hlen
    | digit hb hltb h =>
      cases h
      exact ⟨_, _, ha, hb, hlta, hltb, by simp [numeral_eq_foldl]⟩

theorem isDigit_of_hexValue? {a : Nat} (h : hexValue? c = some a) (ha : a < 10) :
    isDigit c = true := by
  unfold hexValue? at h
  split at h
  · assumption
  · split at h
    · obtain rfl := Option.some.inj h
      omega
    · split at h
      · obtain rfl := Option.some.inj h
        omega
      · cases h

theorem hexValue?_bar : hexValue? '_' = none := by decide

theorem hexValue?_brace : hexValue? (Char.ofNat 125) = none := by decide

/-! ### Escapes -/

theorem codePoint?_digits {k : Nat} (h : Digits 16 s ds) (hk : 0 < k) (hlen : k + ds.length ≤ 6)
    (hv : (ds.foldl (fun v d => v * 16 + d) v).isValidChar) (n : Nat) (rest : List Char) :
    codePoint? v k n (s ++ Char.ofNat 125 :: rest) =
      some (ds.foldl (fun v d => v * 16 + d) v, n + s.length + 1) := by
  induction h generalizing v k n with
  | nil =>
    have hv' : v.isValidChar := hv
    rw [List.nil_append, codePoint?, hexValue?_brace]
    simp [hk, hv']
  | bar h ih =>
    rw [List.cons_append, codePoint?, hexValue?_bar]
    simp only [hk, and_true, if_true]
    rw [ih hk hlen hv]
    simp only [List.length_cons, Option.some.injEq, Prod.mk.injEq, true_and]
    omega
  | digit hc hd h ih =>
    rw [List.length_cons] at hlen
    have hsix : k < 6 := by omega
    rw [List.cons_append, codePoint?, hc]
    simp only [if_pos hsix]
    rw [ih (Nat.succ_pos k) (by omega) hv]
    simp only [List.length_cons, List.foldl_cons, Option.some.injEq, Prod.mk.injEq, true_and]
    omega

theorem codePoint?_eq (hc : c ≠ '_') (h : Digits 16 (c :: s) ds) (hlen : ds.length ≤ 6)
    (hv : (numeral 16 ds).isValidChar) (rest : List Char) :
    codePoint? 0 0 0 (c :: s ++ Char.ofNat 125 :: rest) =
      some (numeral 16 ds, (c :: s).length + 1) := by
  rw [numeral_eq_foldl] at hv ⊢
  cases h with
  | bar h => exact absurd rfl hc
  | digit hd hlt h =>
    rw [List.length_cons] at hlen
    rw [List.cons_append, codePoint?, hd]
    simp only [Nat.ofNat_pos, if_true]
    rw [codePoint?_digits h (Nat.succ_pos 0) (by omega) hv]
    simp only [List.length_cons, List.foldl_cons, Option.some.injEq, Prod.mk.injEq, true_and]
    omega

/-- An escape in a text is read as its character, and as far as it goes. -/
theorem CharEscape.read (h : CharEscape e c) (rest : List Char) :
    escaped (e ++ rest) = c ∧ escapeLength? .chars (e ++ rest) = some e.length := by
  cases h with
  | letter h =>
    simp only [letterEscapes, List.mem_cons, Prod.mk.injEq, List.not_mem_nil, or_false] at h
    rcases h with ⟨rfl, rfl⟩ | ⟨rfl, rfl⟩ | ⟨rfl, rfl⟩ | ⟨rfl, rfl⟩ | ⟨rfl, rfl⟩ | ⟨rfl, rfl⟩ |
      ⟨rfl, rfl⟩ <;> exact ⟨rfl, rfl⟩
  | ascii h hlen hlt =>
    obtain ⟨a, b, ha, hb, -, -, hn⟩ := h.pair hlen
    have ha8 : a < 8 := by omega
    have hdigit := isDigit_of_hexValue? ha (by omega)
    refine ⟨?_, ?_⟩
    · simp [escaped, ha, hb, hn]
    · simp [escapeLength?, Content.admitsHex, ha, hb, ha8, hdigit]
  | codePoint hc h hlen hv =>
    have hpoint := codePoint?_eq hc h hlen hv rest
    refine ⟨?_, ?_⟩
    · simp only [List.cons_append, List.append_assoc, List.nil_append, escaped] at hpoint ⊢
      rw [hpoint]
      rfl
    · simp only [List.cons_append, List.append_assoc, List.nil_append, escapeLength?] at hpoint ⊢
      rw [hpoint]
      simp

theorem CharEscape.head?_ne (h : CharEscape e c) (rest : List Char) :
    ¬((e ++ rest).head? = some '\n' ∨ (e ++ rest).head? = some '\r') := by
  cases h with
  | letter h =>
    have hall : ∀ p ∈ letterEscapes, p.1 ≠ '\n' ∧ p.1 ≠ '\r' := by decide
    simpa using hall _ h
  | ascii => simp
  | codePoint => simp

/-- An escape in a byte is read as a character with that number. -/
theorem ByteEscape.read (h : ByteEscape e n) (rest : List Char) :
    (escaped (e ++ rest)).toNat = n := by
  cases h with
  | letter h => rw [((CharEscape.letter h).read rest).1]
  | hex h hlen =>
    obtain ⟨a, b, ha, hb, hlta, hltb, hn⟩ := h.pair hlen
    have hvalid : (a * 16 + b).isValidChar := Or.inl (by omega)
    have hnat : (Char.ofNat (a * 16 + b)).toNat = a * 16 + b := by
      rw [Char.ofNat, dif_pos hvalid]
      rfl
    simp [escaped, ha, hb, hn, hnat]

theorem ByteEscape.lt (h : ByteEscape e n) : n < 256 := by
  cases h with
  | letter h =>
    have hall : ∀ p ∈ letterEscapes, p.2.toNat < 256 := by decide
    exact hall _ h
  | hex h hlen =>
    obtain ⟨a, b, -, -, hlta, hltb, hn⟩ := h.pair hlen
    omega

/-! ### Quoted texts -/

theorem unquoted_skip (e s : List Char) : unquoted e.length (e ++ s) = unquoted 0 s := by
  induction e with
  | nil => rfl
  | cons c e ih => rw [List.length_cons, List.cons_append, unquoted, ih]

theorem continuationLength?_gap (h : Gap g) (hs : ∃ c r, s = c :: r ∧ c ∉ [' ', '\t', '\n', '\r'])
    (n : Nat) : continuationLength? n (g ++ s) = some (n + g.length) := by
  induction h generalizing n with
  | nil =>
    obtain ⟨c, r, rfl, hc⟩ := hs
    simp only [List.mem_cons, List.not_mem_nil, or_false, not_or] at hc
    obtain ⟨hspace, htab, hline, hreturn⟩ := hc
    rw [List.nil_append, continuationLength?]
    · simp [hspace, htab, hline]
    · rintro r' rfl
      exact absurd rfl hreturn
    · exact hreturn
  | @blank c g hc h ih =>
    have hreturn : c ≠ '\r' := by
      rintro rfl
      exact absurd hc (by decide)
    have hblank : c = ' ' ∨ c = '\t' ∨ c = '\n' := by simpa using hc
    rw [List.cons_append, continuationLength?, if_pos hblank, ih, List.length_cons]
    · congr 1
      omega
    · rintro r' rfl
      exact absurd rfl hreturn
    · exact hreturn
  | lineEnd h ih =>
    rw [List.cons_append, List.cons_append, continuationLength?, ih]
    simp only [List.length_cons]
    congr 1
    omega

theorem Quoted.ne_nil (h : Quoted s t) : ∃ c r, s = c :: r := by
  cases h <;> exact ⟨_, _, rfl⟩

/-- The content of a quoted text is the text it spells. -/
theorem unquoted_eq (h : Quoted s t) : unquoted 0 s = t := by
  induction h with
  | done => rfl
  | plain hc h ih =>
    simp only [List.mem_cons, List.not_mem_nil, or_false, not_or] at hc
    obtain ⟨hquote, hescape, hreturn⟩ := hc
    rw [unquoted, ih]
    · exact hquote
    · exact hreturn
    · exact hescape
  | lineEnd h ih => rw [unquoted, unquoted, ih]
  | escape he h ih =>
    obtain ⟨hchar, hlength⟩ := he.read _
    rw [unquoted, if_neg (he.head?_ne _), hchar, hlength, Option.getD_some, unquoted_skip, ih]
  | @goesOn g s t hg hline hs h ih =>
    obtain ⟨c, r, rfl⟩ := h.ne_nil
    have hhead : (g ++ c :: r).head? = some '\n' ∨ (g ++ c :: r).head? = some '\r' := by
      cases g with
      | nil => simp at hline
      | cons d g => exact hline
    have hlength := continuationLength?_gap hg ⟨c, r, rfl, hs c rfl⟩ 0
    rw [unquoted, if_pos hhead, hlength, Nat.zero_add, Option.getD_some, unquoted_skip, ih]

/-! ### Raw texts -/

theorem take_replicate_of_quote {hashes : Nat}
    (h : (s ++ '"' :: rest).take hashes = List.replicate hashes '#') :
    s.take hashes = List.replicate hashes '#' := by
  rcases Nat.lt_or_ge s.length hashes with hlt | hle
  · have hmem : '"' ∈ (s ++ '"' :: rest).take hashes := by
      obtain ⟨k, hk⟩ : ∃ k, hashes - s.length = k + 1 := ⟨hashes - s.length - 1, by omega⟩
      rw [List.take_append, hk, List.take_succ_cons]
      exact List.mem_append_right _ List.mem_cons_self
    rw [h] at hmem
    exact absurd (List.eq_of_mem_replicate hmem) (by decide)
  · rwa [List.take_append_of_le_length hle] at h

/-- The end of a raw text is found. -/
theorem RawBody.length_eq {hashes : Nat} (h : RawBody hashes s t) (n : Nat) (rest : List Char) :
    rawBodyLength? .chars hashes n (s ++ '"' :: (List.replicate hashes '#' ++ rest)) =
      some (n + s.length + 1 + hashes) := by
  induction h generalizing n with
  | nil => simp [rawBodyLength?]
  | @plain c s t hc hquote h ih =>
    have hgoes : ¬(c = '"' ∧ (s ++ '"' :: (List.replicate hashes '#' ++ rest)).take hashes =
        List.replicate hashes '#') := by
      rintro ⟨rfl, htake⟩
      exact hquote rfl (take_replicate_of_quote htake)
    rw [List.cons_append, rawBodyLength?, if_neg hgoes, Content.admits, if_pos rfl, ih,
      List.length_cons]
    · congr 1
      omega
    · rintro r rfl
      exact absurd rfl hc
    · exact hc
  | lineEnd h ih =>
    rw [List.cons_append, List.cons_append, rawBodyLength?, ih]
    simp only [List.length_cons]
    congr 1
    omega

theorem run_hashes (hashes : Nat) (s : List Char) :
    run (· == '#') (List.replicate hashes '#' ++ '"' :: s) = hashes := by
  rw [run, List.takeWhile_append_of_pos (by simp)]
  simp

/-- The content of a raw text is what is written, ends of lines included. -/
theorem unquotedRaw_eq {hashes : Nat} (h : RawBody hashes s t) :
    unquotedRaw (List.replicate hashes '#' ++ '"' :: (s ++ '"' :: List.replicate hashes '#')) =
      s := by
  have hdrop : (List.replicate hashes '#' ++ '"' :: (s ++ '"' :: List.replicate hashes '#')).drop
      (hashes + 1) = s ++ '"' :: List.replicate hashes '#' := by
    rw [← List.singleton_append, ← List.append_assoc]
    exact List.drop_left' (by simp)
  have hend := h.length_eq 0 []
  rw [List.append_nil] at hend
  have hlength : 0 + s.length + 1 + hashes - (hashes + 1) = s.length := by omega
  simp only [unquotedRaw, run_hashes, hdrop, hend, Option.getD_some, hlength, List.take_left]

theorem RawBody.not_mem {hashes : Nat} (h : RawBody hashes s t) : '\r' ∉ t := by
  induction h with
  | nil => exact List.not_mem_nil
  | plain hc _ _ ih => exact List.not_mem_cons_of_ne_of_not_mem hc.symm ih
  | lineEnd _ ih => exact List.not_mem_cons_of_ne_of_not_mem (by decide) ih

/-- A raw text is what is written if no line of it ends with a carriage return, and only then. -/
theorem RawBody.eq_iff {hashes : Nat} (h : RawBody hashes s t) : s = t ↔ '\r' ∉ s := by
  constructor
  · rintro rfl
    exact h.not_mem
  · intro hs
    induction h with
    | nil => rfl
    | plain _ _ _ ih => rw [ih fun hmem => hs (List.mem_cons_of_mem _ hmem)]
    | lineEnd => exact absurd List.mem_cons_self hs

/-! ### What literals are read as -/

/-- A string literal is read as the text it spells unless it is raw and has a carriage return. -/
theorem StringLiteral.read_iff (h : StringLiteral w t) :
    Literal.ofText w = .text t ↔ Steady w := by
  cases h with
  | quoted h =>
    rw [Literal.ofText, unquoted_eq h, Steady]
    simp
  | raw hhashes h =>
    rw [Literal.ofText, unquotedRaw_eq h, Literal.text.injEq, h.eq_iff, Steady]
    simp

theorem StringLiteral.read (h : StringLiteral w t) (hs : Steady w) : Literal.ofText w = .text t :=
  h.read_iff.mpr hs

theorem CharLiteral.read (h : CharLiteral w c) : Literal.ofText w = .char c := by
  cases h with
  | plain hc =>
    simp only [List.mem_cons, List.not_mem_nil, or_false, not_or] at hc
    rw [Literal.ofText, single]
    exact hc.1
  | escape h => rw [Literal.ofText, single, (h.read _).1]

theorem ByteLiteral.read (h : ByteLiteral w n) : Literal.ofText w = .byte n.toUInt8 := by
  cases h with
  | plain hc =>
    simp only [List.mem_cons, List.not_mem_nil, or_false, not_or] at hc
    rw [Literal.ofText, single]
    exact hc.1
  | escape h => rw [Literal.ofText, single, h.read]

theorem ByteLiteral.lt (h : ByteLiteral w n) : n < 256 := by
  cases h with
  | plain _ hlt => omega
  | escape h => exact h.lt

/-! ### Whole numbers -/

theorem wholeSuffixes_head : ∀ u ∈ wholeSuffixes,
    u = [] ∨ (u.head? = some 'i' ∨ u.head? = some 'u') ∧ isWord u = true := by
  decide

theorem wholeFrom_suffix (h : suffix ∈ wholeSuffixes) (base v : Nat) :
    wholeFrom base v true suffix = some (v, suffix) := by
  rcases wholeSuffixes_head suffix h with rfl | ⟨hhead, hword⟩
  · rfl
  · cases suffix with
    | nil => simp at hhead
    | cons c r =>
      have hc : hexValue? c = none ∧ isExponentMark c = false ∧ c ≠ '_' ∧ c ≠ '.' := by
        rcases hhead with hc | hc <;> obtain rfl := Option.some.inj hc <;> decide
      obtain ⟨hnone, hmark, hbar, hpoint⟩ := hc
      simp [wholeFrom, hnone, hmark, hbar, hpoint, hword]

/-- A digit of a base is neither an underscore nor a point, and no exponent of a decimal number. -/
theorem digit_ne {d : Nat} (h : hexValue? c = some d) (hd : d < base) :
    c ≠ '_' ∧ c ≠ '.' ∧ ¬(base = 10 ∧ isExponentMark c = true) := by
  refine ⟨?_, ?_, ?_⟩
  · rintro rfl
    rw [hexValue?_bar] at h
    cases h
  · rintro rfl
    have hpoint : hexValue? '.' = none := by decide
    rw [hpoint] at h
    cases h
  · rintro ⟨rfl, hmark⟩
    have hdigit := isDigit_of_hexValue? h hd
    simp only [isExponentMark, Bool.or_eq_true, beq_iff_eq] at hmark
    rcases hmark with rfl | rfl <;> exact absurd hdigit (by decide)

theorem wholeFrom_digits {found : Bool} (h : Digits base s ds) (hsome : found = true ∨ ds ≠ [])
    (hsuffix : suffix ∈ wholeSuffixes) (v : Nat) :
    wholeFrom base v found (s ++ suffix) =
      some (ds.foldl (fun v d => v * base + d) v, suffix) := by
  induction h generalizing found v with
  | nil =>
    obtain rfl : found = true := by simpa using hsome
    exact wholeFrom_suffix hsuffix base v
  | bar h ih =>
    rw [List.cons_append, wholeFrom]
    exact ih hsome v
  | digit hc hd h ih =>
    obtain ⟨hbar, hpoint, hmark⟩ := digit_ne hc hd
    rw [List.cons_append, wholeFrom, if_neg hbar, if_neg fun hp => hpoint hp.2, if_neg hmark, hc]
    simp only [if_pos hd]
    exact ih (Or.inl rfl) _

theorem head?_ne_of_isDigit (h : isDigit c = true) : c ≠ '"' ∧ c ≠ 'r' ∧ c ≠ '\'' ∧ c ≠ 'b' := by
  refine ⟨?_, ?_, ?_, ?_⟩ <;> rintro rfl <;> exact absurd h (by decide)

/-- A text that starts with a digit is read as a whole number when it can be. -/
theorem ofText_of_whole? (hc : isDigit c = true) (h : whole? (c :: s) = some (n, suffix)) :
    Literal.ofText (c :: s) = .whole n suffix := by
  obtain ⟨hquote, hraw, hsingle, hbyte⟩ := head?_ne_of_isDigit hc
  have hhead : (c :: s).head?.any isDigit = true := hc
  rw [Literal.ofText, if_pos hhead, h]
  · exact fun r he => hquote (List.cons.inj he).1
  · exact fun r he => hraw (List.cons.inj he).1
  · exact fun r he => hsingle (List.cons.inj he).1
  · exact fun r he => hbyte (List.cons.inj he).1

/-- What a decimal number without its first digit starts with. -/
theorem head?_decimal (h : Digits 10 s ds) (hsuffix : suffix ∈ wholeSuffixes)
    (hc : (s ++ suffix).head? = some c) : isDigit c = true ∨ c ∈ ['_', 'i', 'u'] := by
  cases h with
  | nil =>
    rcases wholeSuffixes_head suffix hsuffix with rfl | ⟨hhead, -⟩
    · cases hc
    · rw [List.nil_append] at hc
      rw [hc, Option.some.injEq, Option.some.injEq] at hhead
      rcases hhead with rfl | rfl <;> exact Or.inr (by decide)
  | bar =>
    obtain rfl := Option.some.inj hc
    exact Or.inr (by decide)
  | digit hd hlt =>
    obtain rfl := Option.some.inj hc
    exact Or.inl (isDigit_of_hexValue? hd hlt)

/-- A number without a mark announces no base but ten. -/
theorem announcedBase_decimal (h : Digits 10 s ds) (hsuffix : suffix ∈ wholeSuffixes) (c : Char) :
    announcedBase (c :: (s ++ suffix)) = (10, 0) := by
  have hsecond : ∀ m r, s ++ suffix = m :: r → m ∉ ['x', 'o', 'b'] := by
    intro m r he hm
    have hhead := head?_decimal h hsuffix (c := m) (by rw [he]; rfl)
    simp only [List.mem_cons, List.not_mem_nil, or_false] at hm
    rcases hm with rfl | rfl | rfl <;> exact absurd hhead (by decide)
  unfold announcedBase
  split
  · rename_i he
    exact absurd List.mem_cons_self (hsecond _ _ (List.cons.inj he).2)
  · rename_i he
    exact absurd (by decide) (hsecond _ _ (List.cons.inj he).2)
  · rename_i he
    exact absurd (by decide) (hsecond _ _ (List.cons.inj he).2)
  · rfl

/-- The literal of a whole number is read as the number it spells. -/
theorem WholeLiteral.read (h : WholeLiteral w n) :
    ∃ suffix, Literal.ofText w = .whole n suffix := by
  obtain @⟨mark, base, s, ds, suffix, hmark, hsuffix, hdigits, hsome, hfirst⟩ := h
  have hwhole : wholeFrom base 0 false (s ++ suffix) = some (_, suffix) :=
    wholeFrom_digits hdigits (Or.inr hsome) hsuffix 0
  rw [← numeral_eq_foldl] at hwhole
  simp only [baseMarks, List.mem_cons, Prod.mk.injEq, List.not_mem_nil, or_false] at hmark
  rcases hmark with ⟨rfl, rfl⟩ | ⟨rfl, rfl⟩ | ⟨rfl, rfl⟩ | ⟨rfl, rfl⟩
  · cases hdigits with
    | nil => exact absurd rfl hsome
    | bar => exact absurd rfl (hfirst rfl)
    | @digit c d s ds hd hlt h =>
      have hten : whole? (c :: (s ++ suffix)) = some (numeral 10 (d :: ds), suffix) := by
        rw [whole?, announcedBase_decimal h hsuffix]
        exact hwhole
      exact ⟨suffix, ofText_of_whole? (isDigit_of_hexValue? hd hlt) hten⟩
  · exact ⟨_, ofText_of_whole? (by decide) hwhole⟩
  · exact ⟨_, ofText_of_whole? (by decide) hwhole⟩
  · exact ⟨_, ofText_of_whole? (by decide) hwhole⟩

end Retrace.Source
