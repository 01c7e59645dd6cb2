import Retrace.Proofs.Source.Spelling

/-! The scanner takes string literals and nothing else that starts like one: where it finds the end
of a literal in quotes, the literal spells a text, and it finds the end of every string literal. -/
namespace Retrace.Source

open Text

variable {s t w : List Char} {c : Char} {k m n v hashes value : Nat}

/-! ### Escapes -/

theorem hexValue?_lt {d : Nat} (h : hexValue? c = some d) : d < 16 := by
  have hle : ∀ b : Char, c ≤ b → c.toNat ≤ b.toNat := fun b hb => hb
  have hnine : '9'.toNat = '0'.toNat + 9 := by decide
  have hf : 'f'.toNat = 'a'.toNat + 5 := by decide
  have hF : 'F'.toNat = 'A'.toNat + 5 := by decide
  unfold hexValue? at h
  simp only [isDigit, Bool.and_eq_true, decide_eq_true_eq] at h
  split at h
  · rename_i hc
    have hc := hle '9' hc.2
    obtain rfl := Option.some.inj h
    omega
  · split at h
    · rename_i hc
      have hc := hle 'f' hc.2
      obtain rfl := Option.some.inj h
      omega
    · split at h
      · rename_i hc
        have hc := hle 'F' hc.2
        obtain rfl := Option.some.inj h
        omega
      · cases h

/-- The digits that were read for a code point, when `k` of them were read before. -/
theorem digits_of_codePoint? (h : codePoint? v k n s = some (value, m)) :
    ∃ body rest ds, s = body ++ Char.ofNat 125 :: rest ∧ Digits 16 body ds ∧
      m = n + body.length + 1 ∧ (k ≤ 6 → k + ds.length ≤ 6) ∧ value.isValidChar ∧
      value = ds.foldl (fun v d => v * 16 + d) v ∧
      (k = 0 → ∃ c r, body = c :: r ∧ c ≠ '_') := by
  induction s generalizing v k n with
  | nil => cases h
  | cons c s ih =>
    rw [codePoint?] at h
    cases hc : hexValue? c with
    | some d =>
      simp only [hc] at h
      split at h
      · rename_i hk
        obtain ⟨body, rest, ds, rfl, hds, rfl, hlen, hvalid, rfl, -⟩ := ih h
        have hbar : c ≠ '_' := by
          rintro rfl
          rw [hexValue?_bar] at hc
          cases hc
        refine ⟨c :: body, rest, d :: ds, rfl, .digit hc (hexValue?_lt hc) hds, ?_, fun _ => ?_,
          hvalid, rfl, fun _ => ⟨c, body, rfl, hbar⟩⟩
        · rw [List.length_cons]
          omega
        · rw [List.length_cons]
          have hsix := hlen (by omega)
          omega
      · cases h
    | none =>
      simp only [hc] at h
      split at h
      · rename_i hbar
        obtain ⟨rfl, hk⟩ := hbar
        obtain ⟨body, rest, ds, rfl, hds, rfl, hlen, hvalid, rfl, -⟩ := ih h
        refine ⟨'_' :: body, rest, ds, rfl, .bar hds, ?_, hlen, hvalid, rfl, fun hzero => ?_⟩
        · rw [List.length_cons]
          omega
        · omega
      · split at h
        · rename_i hend
          obtain ⟨hbrace, hk, hvalid⟩ := hend
          cases h
          have hc' : c = Char.ofNat 125 := by rw [← hbrace, Char.ofNat_toNat]
          refine ⟨[], s, [], by rw [hc']; rfl, .nil, rfl, fun hk => hk, hvalid, rfl, ?_⟩
          intro hzero
          omega
        · cases h

theorem ascii_of_admitsHex {hi lo : Char} (h : Content.chars.admitsHex hi lo = true) :
    ∃ c, CharEscape ['x', hi, lo] c := by
  simp only [Content.admitsHex] at h
  split at h
  · rename_i a b ha hb
    have hlt : a < 8 := by
      simp only [Bool.and_eq_true, decide_eq_true_eq] at h
      exact h.1
    have hlt' := hexValue?_lt hb
    have hnumeral : numeral 16 [a, b] = a * 16 + b := by simp [numeral_eq_foldl]
    have hdigits : Digits 16 [hi, lo] [a, b] := .digit ha (by omega) (.digit hb hlt' .nil)
    exact ⟨_, .ascii hdigits rfl (by omega)⟩
  · cases h

theorem codePoint_of_length (h : codePoint? 0 0 0 s = some (value, n)) :
    ∃ body rest c, s = body ++ Char.ofNat 125 :: rest ∧ n = body.length + 1 ∧
      CharEscape ('u' :: Char.ofNat 123 :: (body ++ [Char.ofNat 125])) c := by
  obtain ⟨body, rest, ds, rfl, hds, rfl, hlen, hvalid, rfl, hfirst⟩ := digits_of_codePoint? h
  obtain ⟨c, r, rfl, hc⟩ := hfirst rfl
  have hsix : ds.length ≤ 6 := by simpa using hlen (Nat.zero_le 6)
  rw [← numeral_eq_foldl] at hvalid
  exact ⟨c :: r, rest, _, rfl, by rw [Nat.zero_add], .codePoint hc hds hsix hvalid⟩

theorem letter_of_mem (h : c ∈ ['n', 'r', 't', '\\', '\'', '"']) : ∃ d, CharEscape [c] d := by
  simp only [List.mem_cons, List.not_mem_nil, or_false] at h
  rcases h with rfl | rfl | rfl | rfl | rfl | rfl
  · exact ⟨'\n', .letter (by decide)⟩
  · exact ⟨'\r', .letter (by decide)⟩
  · exact ⟨'\t', .letter (by decide)⟩
  · exact ⟨'\\', .letter (by decide)⟩
  · exact ⟨'\'', .letter (by decide)⟩
  · exact ⟨'"', .letter (by decide)⟩

/-- What is taken for an escape in a text stands for a character. -/
theorem charEscape_of_length (h : escapeLength? .chars s = some n) :
    ∃ e rest c, s = e ++ rest ∧ n = e.length ∧ CharEscape e c := by
  unfold escapeLength? at h
  split at h
  · rename_i hi lo rest
    split at h
    · rename_i hadmits
      obtain rfl := Option.some.inj h
      obtain ⟨c, hc⟩ := ascii_of_admitsHex hadmits
      exact ⟨['x', hi, lo], rest, c, rfl, rfl, hc⟩
    · cases h
  · rename_i o s
    split at h
    · cases h
    · rename_i hopen
      obtain rfl : o = Char.ofNat 123 := by
        have hbrace : o.toNat = 123 := by simpa using hopen
        rw [← hbrace, Char.ofNat_toNat]
      split at h
      · rename_i v m hpoint
        obtain ⟨body, rest, c, rfl, rfl, hc⟩ := codePoint_of_length hpoint
        simp only [reduceCtorEq, false_and, if_false, Option.some.injEq] at h
        refine ⟨_, rest, c, by simp, ?_, hc⟩
        simp only [List.length_cons, List.length_append, List.length_nil]
        omega
      · cases h
  · rename_i rest
    obtain rfl : n = 1 := by simpa using h.symm
    exact ⟨['0'], rest, Char.ofNat 0, rfl, rfl, .letter (by decide)⟩
  · rename_i c rest _ _ _
    split at h
    · rename_i hmem
      obtain rfl := Option.some.inj h
      obtain ⟨d, hd⟩ := letter_of_mem hmem
      exact ⟨[c], rest, d, rfl, rfl, hd⟩
    · cases h
  · cases h

/-- What is skipped after a backslash at the end of a line are blanks and ends of lines. -/
theorem gap_of_length (h : continuationLength? n s = some m) :
    ∃ g rest, s = g ++ rest ∧ m = n + g.length ∧ Gap g ∧
      ∃ c r, rest = c :: r ∧ c ∉ [' ', '\t', '\n', '\r'] := by
  induction hk : s.length using Nat.strongRecOn generalizing s n with
  | _ k ih =>
    subst hk
    unfold continuationLength? at h
    split at h
    · cases h
    · obtain ⟨g, rest, rfl, rfl, hg, hrest⟩ := ih _ (by simp only [List.length_cons]; omega) h rfl
      refine ⟨'\r' :: '\n' :: g, rest, rfl, ?_, .lineEnd hg, hrest⟩
      simp only [List.length_cons]
      omega
    · cases h
    · rename_i c s hline hreturn
      split at h
      · rename_i hblank
        obtain ⟨g, rest, rfl, rfl, hg, hrest⟩ := ih _ (by simp only [List.length_cons]; omega) h rfl
        refine ⟨c :: g, rest, rfl, ?_, .blank (by simpa using hblank) hg, hrest⟩
        simp only [List.length_cons]
        omega
      · rename_i hblank
        obtain rfl := Option.some.inj h
        have hc : c ≠ '\r' := fun hc => hreturn hc
        refine ⟨[], c :: s, rfl, rfl, .nil, c, s, rfl, ?_⟩
        simpa [hc] using hblank

/-! ### Quoted texts -/

theorem quotedLength?_skip (e s : List Char) :
    quotedLength? .chars n e.length (e ++ s) = quotedLength? .chars (n + e.length) 0 s := by
  induction e generalizing n with
  | nil => rfl
  | cons c e ih =>
    rw [List.length_cons, List.cons_append, quotedLength?, ih, Nat.add_right_comm, Nat.add_assoc]

/-- The end of a quoted text is found. -/
theorem Quoted.length_eq (h : Quoted s t) (n : Nat) (rest : List Char) :
    quotedLength? .chars n 0 (s ++ rest) = some (n + s.length) := by
  induction h generalizing n with
  | done => rfl
  | plain hc h ih =>
    simp only [List.mem_cons, List.not_mem_nil, or_false, not_or] at hc
    obtain ⟨hquote, hescape, hreturn⟩ := hc
    rw [List.cons_append, quotedLength?, Content.admits, if_pos rfl, ih, List.length_cons]
    · congr 1
      omega
    · exact hquote
    · exact hreturn
    · exact hescape
  | @lineEnd s t h ih =>
    have hhead : ('\n' :: (s ++ rest)).head? = some '\n' := rfl
    rw [List.cons_append, List.cons_append, quotedLength?, if_pos hhead, quotedLength?, ih]
    simp only [List.length_cons]
    congr 1
    omega
  | escape he h ih =>
    rw [List.cons_append, List.append_assoc, quotedLength?, if_neg (he.head?_ne _),
      (he.read _).2]
    simp only [quotedLength?_skip, ih, List.length_cons, List.length_append]
    congr 1
    omega
  | @goesOn g s t hg hline hs h ih =>
    obtain ⟨c, r, rfl⟩ := h.ne_nil
    have hhead : (g ++ (c :: r ++ rest)).head? = some '\n' ∨
        (g ++ (c :: r ++ rest)).head? = some '\r' := by
      cases g with
      | nil => simp at hline
      | cons d g => exact hline
    have hlength := continuationLength?_gap hg ⟨c, r ++ rest, rfl, hs c rfl⟩ 0
    rw [List.cons_append, List.append_assoc, quotedLength?, if_pos hhead]
    rw [List.cons_append] at ih ⊢
    rw [hlength, Nat.zero_add]
    simp only [quotedLength?_skip, ih, List.length_cons, List.length_append]
    congr 1
    omega

/-- A quoted text of which the end is found spells a text. -/
theorem quoted_of_length (h : quotedLength? .chars n 0 s = some m) :
    ∃ w rest t, s = w ++ rest ∧ Quoted w t := by
  induction hk : s.length using Nat.strongRecOn generalizing s n with
  | _ k ih =>
    subst hk
    unfold quotedLength? at h
    split at h
    · cases h
    · rename_i hskip
      cases hskip
    · rename_i rest _
      exact ⟨['"'], rest, [], rfl, .done⟩
    · rename_i s _
      split at h
      · rename_i hhead
        obtain ⟨s, rfl⟩ := List.head?_eq_some_iff.mp hhead
        rw [quotedLength?] at h
        obtain ⟨w, rest, t, rfl, hw⟩ := ih _ (by simp only [List.length_cons]; omega) h rfl
        exact ⟨'\r' :: '\n' :: w, rest, '\n' :: t, rfl, .lineEnd hw⟩
      · cases h
    · rename_i s _
      split at h
      · rename_i hhead
        split at h
        · rename_i k hgap
          obtain ⟨g, after, rfl, rfl, hg, c, r, rfl, hc⟩ := gap_of_length hgap
          rw [Nat.zero_add, quotedLength?_skip] at h
          obtain ⟨w, rest, t, hw, hquoted⟩ :=
            ih _ (by simp only [List.length_cons, List.length_append]; omega) h rfl
          have hg' : g.head? = some '\n' ∨ g.head? = some '\r' := by
            cases g with
            | nil =>
              simp only [List.nil_append, List.head?_cons, Option.some.injEq] at hhead
              rcases hhead with rfl | rfl <;> exact absurd hc (by decide)
            | cons d g => exact hhead
          have hs : ∀ d ∈ w.head?, d ∉ [' ', '\t', '\n', '\r'] := by
            obtain ⟨d, w, rfl⟩ := hquoted.ne_nil
            obtain ⟨rfl, -⟩ := List.cons.inj hw
            intro d hd
            obtain rfl := Option.some.inj hd
            exact hc
          exact ⟨'\\' :: (g ++ w), rest, t, by simp [hw], .goesOn hg hg' hs hquoted⟩
        · cases h
      · split at h
        · rename_i k hescape
          obtain ⟨e, after, c, rfl, rfl, he⟩ := charEscape_of_length hescape
          rw [quotedLength?_skip] at h
          obtain ⟨w, rest, t, rfl, hw⟩ :=
            ih _ (by simp only [List.length_cons, List.length_append]; omega) h rfl
          exact ⟨'\\' :: (e ++ w), rest, c :: t, by simp, .escape he hw⟩
        · cases h
    · rename_i c s hquote hreturn hescape _
      rw [Content.admits, if_pos rfl] at h
      obtain ⟨w, rest, t, rfl, hw⟩ := ih _ (by simp only [List.length_cons]; omega) h rfl
      have hc : c ∉ ['"', '\\', '\r'] := by
        simp only [List.mem_cons, List.not_mem_nil, or_false, not_or]
        exact ⟨hquote, hescape, hreturn⟩
      exact ⟨c :: w, rest, c :: t, rfl, .plain hc hw⟩

/-! ### Raw texts -/

/-- A raw text of which the end is found is what stands before a quote and as many marks. -/
theorem rawBody_of_length (h : rawBodyLength? .chars hashes n s = some m) :
    ∃ w rest t, s = w ++ '"' :: (List.replicate hashes '#' ++ rest) ∧ RawBody hashes w t := by
  induction hk : s.length using Nat.strongRecOn generalizing s n with
  | _ k ih =>
    subst hk
    unfold rawBodyLength? at h
    split at h
    · cases h
    · obtain ⟨w, rest, t, rfl, hw⟩ := ih _ (by simp only [List.length_cons]; omega) h rfl
      exact ⟨'\r' :: '\n' :: w, rest, '\n' :: t, rfl, .lineEnd hw⟩
    · cases h
    · rename_i c s hline hreturn
      split at h
      · rename_i hend
        obtain ⟨rfl, htake⟩ := hend
        refine ⟨[], s.drop hashes, [], ?_, .nil⟩
        rw [← htake, List.take_append_drop]
        rfl
      · rename_i hgoes
        rw [Content.admits, if_pos rfl] at h
        obtain ⟨w, rest, t, rfl, hw⟩ := ih _ (by simp only [List.length_cons]; omega) h rfl
        have hquote : c = '"' → w.take hashes ≠ List.replicate hashes '#' := by
          rintro rfl htake
          have hle : hashes ≤ w.length := by
            have hlength := congrArg List.length htake
            simp only [List.length_take, List.length_replicate] at hlength
            omega
          exact hgoes ⟨rfl, by rw [List.take_append_of_le_length hle, htake]⟩
        exact ⟨c :: w, rest, c :: t, rfl, .plain hreturn hquote hw⟩

theorem eq_of_drop_run {body : List Char} (h : s.drop (run (· == '#') s) = '"' :: body) :
    s = List.replicate (run (· == '#') s) '#' ++ '"' :: body := by
  have hmarks : s.takeWhile (· == '#') = List.replicate (run (· == '#') s) '#' := by
    refine List.eq_replicate_iff.mpr ⟨rfl, fun c hc => ?_⟩
    simpa using List.all_eq_true.mp (List.all_takeWhile) c hc
  have htake : s.take (run (· == '#') s) = s.takeWhile (· == '#') :=
    (List.prefix_iff_eq_take.mp (List.takeWhile_prefix _)).symm
  rw [← hmarks, ← htake, ← h, List.take_append_drop]

theorem raw_of_length (h : rawLength? .chars s = some m) : ∃ hashes w rest t, hashes ≤ 255 ∧
    s = List.replicate hashes '#' ++ '"' :: (w ++ '"' :: (List.replicate hashes '#' ++ rest)) ∧
    RawBody hashes w t := by
  simp only [rawLength?] at h
  split at h
  · rename_i body hbody
    split at h
    · rename_i hhashes
      obtain ⟨w, rest, t, rfl, hw⟩ := rawBody_of_length h
      exact ⟨_, w, rest, t, hhashes, eq_of_drop_run hbody, hw⟩
    · cases h
  · cases h

/-! ### String literals -/

theorem withSuffix_append (w rest : List Char) :
    withSuffix (w ++ rest) w.length = w.length + suffixLength rest := by
  rw [withSuffix, List.drop_left]

/-- The end of a string literal is found, with the suffix after it. -/
theorem StringLiteral.length_eq (h : StringLiteral w t) (rest : List Char) :
    textLength? (w ++ rest) = some (w.length + suffixLength rest) := by
  rw [← withSuffix_append]
  cases h with
  | @quoted s _ h =>
    have hend : quotedLength? .chars 1 0 (s ++ rest) = some ('"' :: s).length := by
      rw [h.length_eq, List.length_cons, Nat.add_comm]
    rw [List.cons_append, textLength?, hend]
    rfl
  | @raw hashes s _ hhashes h =>
    have hdrop : (List.replicate hashes '#' ++ '"' ::
        (s ++ '"' :: (List.replicate hashes '#' ++ rest))).drop hashes =
          '"' :: (s ++ '"' :: (List.replicate hashes '#' ++ rest)) :=
      List.drop_left' (List.length_replicate ..)
    have hraw : rawLength? .chars (List.replicate hashes '#' ++
        '"' :: (s ++ '"' :: (List.replicate hashes '#' ++ rest))) =
          some (hashes + 1 + s.length + 1 + hashes) := by
      simp only [rawLength?, run_hashes, hdrop, if_pos hhashes, h.length_eq]
    have hlength : ('r' :: (List.replicate hashes '#' ++
        '"' :: (s ++ '"' :: List.replicate hashes '#'))).length =
          hashes + 1 + s.length + 1 + hashes + 1 := by
      simp only [List.length_cons, List.length_append, List.length_replicate]
      omega
    rw [hlength]
    simp only [List.cons_append, List.append_assoc, textLength?, hraw, Option.map_some]

/-- What starts like a string literal is taken for a literal of some length just if a string
literal, perhaps with a suffix, of that length stands there. -/
theorem textLength?_eq_some_iff (hs : s.head? = some '"' ∨ s.head? = some 'r') :
    textLength? s = some n ↔ ∃ w rest t, s = w ++ rest ∧ n = w.length + suffixLength rest ∧
      StringLiteral w t := by
  constructor
  · intro h
    have hliteral : ∃ w rest t, s = w ++ rest ∧ StringLiteral w t := by
      rcases hs with hs | hs <;> obtain ⟨s, rfl⟩ := List.head?_eq_some_iff.mp hs <;>
        obtain ⟨k, hk, -⟩ := Option.map_eq_some_iff.mp h
      · obtain ⟨w, rest, t, rfl, hw⟩ := quoted_of_length hk
        exact ⟨'"' :: w, rest, t, rfl, .quoted hw⟩
      · obtain ⟨k, hk, -⟩ := Option.map_eq_some_iff.mp hk
        obtain ⟨hashes, w, rest, t, hhashes, rfl, hw⟩ := raw_of_length hk
        exact ⟨_, rest, t, by simp, .raw hhashes hw⟩
    obtain ⟨w, rest, t, rfl, hw⟩ := hliteral
    rw [hw.length_eq] at h
    exact ⟨w, rest, t, rfl, (Option.some.inj h).symm, hw⟩
  · rintro ⟨w, rest, t, rfl, rfl, hw⟩
    exact hw.length_eq rest

end Retrace.Source
