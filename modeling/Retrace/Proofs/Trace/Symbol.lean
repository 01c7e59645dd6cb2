import Retrace.Proofs.Text.Parts
import Retrace.Trace.Symbol

/-! The routine that a symbol names: the segment after the last double colon that stands outside
angle brackets, however deep brackets are nested before it. -/
namespace Retrace.Symbol

open Text

variable {c : Char} {p s t m seen : List Char} {depth : Int}

/-! ### Segments -/

/-- The number of open brackets after one more character. -/
def depthAfter (depth : Int) (c : Char) : Int :=
  if c = '<' then depth + 1 else if c = '>' then depth - 1 else depth

theorem segmentsFrom_arrow : segmentsFrom depth seen ('-' :: '>' :: s) =
    segmentsFrom depth ('>' :: '-' :: seen) s := by
  rw [segmentsFrom]

theorem segmentsFrom_colons :
    segmentsFrom 0 seen (':' :: ':' :: s) = seen.reverse :: segmentsFrom 0 [] s := by
  simp [segmentsFrom]

/-- A character that neither starts an arrow nor divides segments belongs to the current one. -/
theorem segmentsFrom_cons (ha : ¬ (c = '-' ∧ s.head? = some '>'))
    (hd : ¬ (depth = 0 ∧ c = ':' ∧ s.head? = some ':')) :
    segmentsFrom depth seen (c :: s) = segmentsFrom (depthAfter depth c) (c :: seen) s := by
  cases s with
  | nil => simp [segmentsFrom]
  | cons d s =>
    rw [segmentsFrom]
    · rw [if_neg (by simpa using hd)]
      rfl
    · rintro rfl rfl
      exact ha ⟨rfl, rfl⟩

/-! ### Brackets -/

def arrows (s : List Char) : Nat := (s.zip s.tail).count ('-', '>')

/-- As many angle brackets close as open, the brackets of arrows aside. -/
def Balanced (s : List Char) : Prop := s.count '<' + arrows s = s.count '>'

instance (s : List Char) : Decidable (Balanced s) :=
  inferInstanceAs (Decidable (s.count '<' + arrows s = s.count '>'))

/-- How many more brackets open in a text than close. -/
def surplus (s : List Char) : Int := s.count '<' + arrows s - s.count '>'

theorem arrows_cons : arrows (c :: s) =
    arrows s + if c = '-' ∧ s.head? = some '>' then 1 else 0 := by
  cases s with
  | nil => simp [arrows]
  | cons d s => simp [arrows, List.count_cons, Prod.ext_iff]

theorem surplus_arrow : surplus ('-' :: '>' :: s) = surplus s := by
  simp [surplus, arrows_cons]
  omega

theorem surplus_cons (h : ¬ (c = '-' ∧ s.head? = some '>')) :
    depth + surplus (c :: s) = depthAfter depth c + surplus s := by
  rw [surplus, surplus, arrows_cons, if_neg h]
  by_cases ho : c = '<'
  · subst ho
    simp [depthAfter]
    omega
  · by_cases hc : c = '>'
    · subst hc
      simp [depthAfter]
      omega
    · simp [depthAfter, ho, hc]

theorem getLast?_ne_of_cons {d : Char} (h : (c :: s).getLast? ≠ some d) : s.getLast? ≠ some d := by
  intro he
  rw [List.getLast?_cons, he] at h
  exact h rfl

/-- A text that does not end with a colon is gone through in the same way whatever comes after the
colon behind it: some segments end, another one is begun, and brackets are left open. -/
theorem segmentsFrom_append (ht : t.head? = some ':') (hs : s.getLast? ≠ some ':') :
    ∃ front seen', segmentsFrom depth seen (s ++ t) =
      front ++ segmentsFrom (depth + surplus s) seen' t := by
  fun_induction segmentsFrom depth seen s with
  | case1 depth seen => exact ⟨[], seen, by simp [surplus, arrows]⟩
  | case2 depth seen s ih =>
    obtain ⟨front, seen', he⟩ := ih (getLast?_ne_of_cons (getLast?_ne_of_cons hs))
    refine ⟨front, seen', ?_⟩
    rw [surplus_arrow, ← he]
    exact segmentsFrom_arrow
  | case3 depth seen c d s _ h ih =>
    obtain ⟨rfl, rfl, rfl⟩ := h
    obtain ⟨front, seen', he⟩ := ih (getLast?_ne_of_cons (getLast?_ne_of_cons hs))
    have hsurplus : surplus (':' :: ':' :: s) = surplus s := by simp [surplus, arrows_cons]
    refine ⟨seen.reverse :: front, seen', ?_⟩
    rw [hsurplus]
    exact segmentsFrom_colons.trans (congrArg (seen.reverse :: ·) he)
  | case4 depth seen c d s ha h depth' ih =>
    obtain ⟨front, seen', he⟩ := ih (getLast?_ne_of_cons hs)
    have harrow : ¬ (c = '-' ∧ (d :: s).head? = some '>') :=
      fun hc => ha hc.1 (Option.some.inj hc.2)
    have hstep : segmentsFrom depth seen (c :: (d :: s ++ t)) = _ :=
      segmentsFrom_cons harrow fun hc => h ⟨hc.1, hc.2.1, Option.some.inj hc.2.2⟩
    refine ⟨front, seen', ?_⟩
    rw [surplus_cons harrow]
    exact hstep.trans he
  | case5 depth seen c =>
    have harrow : ¬ (c = '-' ∧ t.head? = some '>') := by simp [ht]
    have hcolon : c ≠ ':' := fun hc => hs (by rw [hc]; rfl)
    refine ⟨[], c :: seen, ?_⟩
    rw [surplus_cons (by simp)]
    simpa [surplus, arrows] using segmentsFrom_cons harrow fun hc => hcolon hc.2.1

/-- Without a colon there is one segment. -/
theorem segmentsFrom_plain (h : ':' ∉ s) : segmentsFrom depth seen s = [seen.reverse ++ s] := by
  fun_induction segmentsFrom depth seen s with
  | case1 => simp
  | case2 _ _ s ih => simp [ih (by simpa using h)]
  | case3 _ _ _ _ _ _ hc => exact absurd (by simp [hc.2.1]) h
  | case4 _ _ c d s _ _ _ ih => simp [ih (fun hm => h (List.mem_cons_of_mem _ hm))]
  | case5 => simp

/-! ### The last segment -/

/-- The name that a closure has in a symbol. -/
def closureName : List Char := "\x7b\x7bclosure\x7d\x7d".toList

/-- The name of a routine that is no closure. -/
structure IsName (m : List Char) : Prop where
  ne_nil : m ≠ []
  plain : '<' ∉ m ∧ '>' ∉ m ∧ ':' ∉ m
  noClosure : m ≠ closureName

instance (m : List Char) : Decidable (IsName m) :=
  decidable_of_iff (m ≠ [] ∧ ('<' ∉ m ∧ '>' ∉ m ∧ ':' ∉ m) ∧ m ≠ closureName)
    ⟨fun h => ⟨h.1, h.2.1, h.2.2⟩, fun h => ⟨h.ne_nil, h.plain, h.noClosure⟩⟩

/-- A symbol that goes on with a name. -/
def extend (s m : List Char) : List Char := s ++ ':' :: ':' :: m

/-- A symbol that goes on with the names of closures, each inside the one before. -/
def extendClosures (s : List Char) : Nat → List Char
  | 0 => s
  | k + 1 => extend (extendClosures s k) closureName

theorem getLast?_segments (hb : Balanced p) (hp : p.getLast? ≠ some ':') (hm : IsName m) :
    (segments (extend p m)).getLast? = some m := by
  obtain ⟨front, seen, he⟩ : ∃ front seen, segmentsFrom 0 [] (p ++ ':' :: ':' :: m) =
      front ++ segmentsFrom (0 + surplus p) seen (':' :: ':' :: m) := segmentsFrom_append rfl hp
  have hsurplus : surplus p = 0 := by
    have hcount : p.count '<' + arrows p = p.count '>' := hb
    rw [surplus]
    omega
  rw [segments, extend, he, hsurplus, Int.add_zero, segmentsFrom_colons,
    segmentsFrom_plain hm.plain.2.2]
  have hlast : front ++ [seen.reverse, [].reverse ++ m] = front ++ [seen.reverse] ++ [m] := by simp
  have hkept : [m].filter (fun p => !p.isEmpty) = [m] := by simp [hm.ne_nil]
  rw [hlast, List.filter_append, hkept, List.getLast?_concat]

/-! ### Closures -/

theorem stripSuffix?_append (s p : List Char) : stripSuffix? p (s ++ p) = some s := by
  rw [stripSuffix?, List.reverse_append, stripPrefix?_append, Option.map_some, List.reverse_reverse]

theorem eq_append_of_stripSuffix? (h : stripSuffix? p s = some t) : s = t ++ p := by
  obtain ⟨r, hr, rfl⟩ := Option.map_eq_some_iff.mp h
  have hs := congrArg List.reverse (eq_append_of_stripPrefix? hr)
  simpa using hs

/-- The last name that a symbol was extended by can be told. -/
theorem name_eq_of_extend (h : extend s m = extend t p) (hm : ':' ∉ m) (hp : ':' ∉ p) : m = p := by
  have hsplit {s m : List Char} (hm : ':' ∉ m) :
      splitLast [':'] (extend s m) = some (s ++ [':'], m) := by
    have hlast : splitLast [':'] (s ++ [':'] ++ [':'] ++ m) = some (s ++ [':'], m) :=
      splitLast_append (p := []) hm
    rwa [List.append_assoc, List.append_assoc] at hlast
  have he := hsplit (s := s) hm
  rw [h, hsplit hp] at he
  exact (congrArg Prod.snd (Option.some.inj he)).symm

theorem stripSuffix?_closure (s : List Char) :
    stripSuffix? closureMark (extend s closureName) = some s := by
  have hmark : closureMark = ':' :: ':' :: closureName := by decide +kernel
  rw [hmark]
  exact stripSuffix?_append s _

/-- A symbol that ends with the name of a routine does not end with the mark of a closure. -/
theorem stripSuffix?_name (s : List Char) (hm : IsName m) :
    stripSuffix? closureMark (extend s m) = none := by
  cases h : stripSuffix? closureMark (extend s m) with
  | none => rfl
  | some t =>
    have hmark : closureMark = ':' :: ':' :: closureName := by decide +kernel
    have he : extend s m = extend t closureName := by
      rw [eq_append_of_stripSuffix? h, hmark]
      rfl
    exact absurd (name_eq_of_extend he hm.plain.2.2 (by decide +kernel)) hm.noClosure

theorem dropClosures_extendClosures (h : stripSuffix? closureMark s = none) {k fuel : Nat}
    (hk : k ≤ fuel) : dropClosures fuel (extendClosures s k) = s := by
  induction k generalizing fuel with
  | zero =>
    cases fuel with
    | zero => rfl
    | succ fuel => rw [extendClosures, dropClosures, h]
  | succ k ih =>
    obtain ⟨fuel, rfl⟩ : ∃ n, fuel = n + 1 := ⟨fuel - 1, by omega⟩
    rw [extendClosures, dropClosures, stripSuffix?_closure]
    exact ih (by omega)

theorem le_length_extendClosures (s : List Char) (k : Nat) :
    k ≤ (extendClosures s k).length := by
  induction k with
  | zero => exact Nat.zero_le _
  | succ k ih =>
    rw [extendClosures, extend, List.length_append, List.length_cons]
    omega

theorem dropWhile_of_not_mem (h : c ∉ s) : s.dropWhile (· == c) = s := by
  cases s with
  | nil => rfl
  | cons d s =>
    have hd : (d == c) = false := by
      rw [beq_eq_false_iff_ne]
      rintro rfl
      exact h (by simp)
    rw [List.dropWhile_cons, hd]
    rfl

/-- However brackets are nested in the symbol before it, and however many closures come after it,
the name is found. -/
theorem short_extend (hb : Balanced p) (hp : p.getLast? ≠ some ':') (hm : IsName m) (k : Nat) :
    short (extendClosures (extend p m) k) = m := by
  have hpath := dropClosures_extendClosures (stripSuffix?_name p hm)
    (le_length_extendClosures (extend p m) k)
  have hopen : m.dropWhile (· == '<') = m := dropWhile_of_not_mem hm.plain.1
  have hclose : dropEndWhile (· == '>') m = m := by
    rw [dropEndWhile, dropWhile_of_not_mem (fun hc => hm.plain.2.1 (List.mem_reverse.mp hc)),
      List.reverse_reverse]
  rw [short, hpath]
  simp only [getLast?_segments hb hp hm, Option.getD_some, hopen, hclose]

end Retrace.Symbol
