import Retrace.Proofs.Json.Lines
import Retrace.Proofs.Value
import Retrace.Trace.Datum

/-! The fragment that a program writes for a datum is read as the value of that datum. -/
namespace Retrace.Datum

open Json Json.Reader

variable {room : Nat} {u : List Char}

mutual
/-- How deep lists are nested in a datum. -/
def depth : Datum → Nat
  | list items => depths items + 1
  | _ => 0

def depths : List Datum → Nat
  | [] => 0
  | d :: ds => max d.depth (depths ds)
end

mutual
/-- Whether no part of a datum is a floating point number. -/
def floatFree : Datum → Bool
  | float _ _ => false
  | list items => floatsFree items
  | _ => true

def floatsFree : List Datum → Bool
  | [] => true
  | d :: ds => d.floatFree && floatsFree ds
end

theorem depths_le_iff {n : Nat} {ds : List Datum} : depths ds ≤ n ↔ ∀ d ∈ ds, d.depth ≤ n := by
  induction ds with
  | nil => simp [depths]
  | cons d ds ih =>
    rw [depths, List.forall_mem_cons, ← ih]
    omega

theorem floatsFree_iff {ds : List Datum} : floatsFree ds ↔ ∀ d ∈ ds, d.floatFree := by
  induction ds with
  | nil => simp [floatsFree]
  | cons d ds ih => simp [floatsFree, ih]

/-! ### The form of fragments -/

/-- The letters for control characters in a fragment. -/
def letters : Letters := [('\n', 'n'), ('\r', 'r'), ('\t', 't')]

theorem sound_letters : Sound letters := sound_of_forall (by decide)

theorem quote_toList (s : String) : (quote s).toList = quoteWith letters s.toList := by
  simp [quote, letters]

/-- The fragment of a kind is the record of its name and of what it holds. -/
theorem tagged_toList (kind content : String)
    (hk : kind.toList.flatMap (escape letters) = kind.toList) :
    (tagged kind content).toList =
      recordText [("type", quoteWith letters kind.toList), ("value", content.toList)] := by
  have hb : [Char.ofNat 123] = openBrace.toList ∧ [Char.ofNat 125] = closeBrace.toList := by decide
  simp only [recordText, List.map_cons, List.map_nil, fieldText_plain "type" (by decide),
    fieldText_plain "value" (by decide), Text.join]
  rw [← List.singleton_append, hb.1, hb.2]
  simp [tagged, quoteWith, hk]

theorem nothing_toList :
    nothing.fragment.toList = recordText [("type", quoteWith letters "null".toList)] := by
  decide

theorem fragments_toList (ds : List Datum) :
    (fragments ds).toList = Text.join [','] (ds.map fun d => d.fragment.toList) := by
  induction ds with
  | nil => simp [fragments, Text.join]
  | cons d ds ih =>
    cases ds with
    | nil => simp [fragments, Text.join]
    | cons e ds =>
      rw [fragments, String.toList_append, String.toList_append, ih]
      · simp [Text.join]
      · simp

theorem list_toList (ds : List Datum) :
    ("[" ++ fragments ds ++ "]").toList = listText (ds.map fun d => d.fragment.toList) := by
  simp [listText, fragments_toList]

/-! ### Reading fragments -/

theorem reads_quote (room : Nat) (s : String) : Reads (Decoder.text room) (quote s).toList s := by
  have h := Decoder.reads_text sound_letters room s.toList
  rwa [← quote_toList, String.ofList_toList] at h

theorem head?_quote_ne (s : String) : (quote s).toList.head? ≠ some 'n' := by
  simp [quote_toList, quoteWith]

theorem reads_kind {name content : String} {kind : Value.Kind} {v : Value}
    (hn : name.toList.flatMap (escape letters) = name.toList)
    (hk : Value.kinds.lookup name = some kind)
    (h : Reads (Value.contentOf (Decoder.list Value.read room) room kind) content.toList v) :
    Reads (Value.read (room + 1)) (tagged name content).toList v := by
  rw [Value.read_succ, tagged_toList name content hn]
  exact Value.reads_tagged sound_letters hk h

theorem reads_object (room : Nat) (s : String) :
    Reads (Value.read (room + 1)) (tagged "object" (quote s)).toList (.object s) :=
  reads_kind (by decide) rfl ((reads_quote room s).map _)

theorem reads_whole (room : Nat) (n : Int) :
    Reads (Value.read (room + 1)) (whole n).fragment.toList (whole n).value := by
  simp only [fragment, value, Value.ofInt]
  by_cases hf : Value.fits n
  · have hn := Value.fits_iff.mp hf
    have hlo : -0x8000000000000000 ≤ n := hn.1
    have hhi : n ≤ 0x7FFFFFFFFFFFFFFF := hn.2
    rw [if_pos hf, if_pos hf]
    exact reads_kind (by decide) rfl
      ((Decoder.reads_whole hn hlo (by omega) "i64" room).map Value.int)
  · rw [if_neg hf, if_neg hf]
    exact reads_object room (toString n)

mutual
/-- The fragment of a datum is read as its value when the room is enough for its lists. -/
theorem reads_fragment : ∀ (d : Datum) (room : Nat), d.floatFree → 2 * d.depth + 1 ≤ room →
    Reads (Value.read room) d.fragment.toList d.value
  | d, 0, _, hr => by omega
  | whole n, room + 1, _, _ => reads_whole room n
  | float _ _, _ + 1, hf, _ => by simp [floatFree] at hf
  | truth b, room + 1, _, _ => by
    have h := Decoder.reads_truth b room
    exact reads_kind (by decide) rfl (h.map Value.truth)
  | char c, room + 1, _, _ => by
    have h := Decoder.reads_char sound_letters c room
    rw [← String.toList_singleton, ← quote_toList] at h
    exact reads_kind (by decide) rfl (h.map Value.char)
  | text s, room + 1, _, _ => reads_kind (by decide) rfl ((reads_quote room s).map Value.text)
  | nothing, room + 1, _, _ => by
    rw [Value.read_succ, nothing_toList]
    exact Value.reads_null sound_letters
  | described s, room + 1, _, _ => reads_object room s
  | list items, room + 1, hf, hr => by
    have hd : 2 * depths items + 2 ≤ room := by
      simp only [depth] at hr
      omega
    obtain ⟨room, rfl⟩ : ∃ k, room = k + 1 := ⟨room - 1, by omega⟩
    have hitems := reads_fragments items room (by simpa [floatFree] using hf) (by omega)
    have hlist := Decoder.reads_list hitems
    rw [← list_toList] at hlist
    exact reads_kind (by decide) rfl (hlist.map Value.list)

/-- The fragments of data are read one by one as their values. -/
theorem reads_fragments : ∀ (ds : List Datum) (room : Nat), floatsFree ds →
    2 * depths ds + 1 ≤ room →
    List.Forall₂ (Reads (Value.read room)) (ds.map fun d => d.fragment.toList) (values ds)
  | [], _, _, _ => .nil
  | d :: ds, room, hf, hr => by
    simp only [floatsFree, Bool.and_eq_true] at hf
    have hmax : 2 * d.depth + 1 ≤ room ∧ 2 * depths ds + 1 ≤ room := by
      simp only [depths] at hr
      omega
    exact .cons (reads_fragment d room hf.1 hmax.1) (reads_fragments ds room hf.2 hmax.2)
end

/-! ### Fragments on a line -/

theorem oneLine_quote (s : String) : OneLine (quote s).toList := by
  rw [quote_toList]
  exact oneLine_quoteWith sound_letters _

theorem oneLine_tagged {kind content : String}
    (hk : kind.toList.flatMap (escape letters) = kind.toList) (h : OneLine content.toList) :
    OneLine (tagged kind content).toList := by
  rw [tagged_toList kind content hk]
  refine oneLine_recordText fun f hf => ?_
  rcases List.mem_pair.mp hf with rfl | rfl
  · exact oneLine_quoteWith sound_letters _
  · exact h

mutual
theorem oneLine_fragment : ∀ d : Datum, d.floatFree → OneLine d.fragment.toList
  | whole n, _ => by
    simp only [fragment]
    split
    · exact oneLine_tagged (by decide) (oneLine_toString n)
    · exact oneLine_tagged (by decide) (oneLine_quote _)
  | float _ _, hf => by simp [floatFree] at hf
  | truth b, _ => oneLine_tagged (by decide) (by cases b <;> decide)
  | char c, _ => oneLine_tagged (by decide) (oneLine_quote _)
  | text s, _ => oneLine_tagged (by decide) (oneLine_quote s)
  | nothing, _ => by decide
  | described s, _ => oneLine_tagged (by decide) (oneLine_quote s)
  | list items, hf => by
    refine oneLine_tagged (by decide) ?_
    rw [list_toList]
    exact oneLine_listText (oneLine_fragments items (by simpa [floatFree] using hf))

theorem oneLine_fragments : ∀ ds : List Datum, floatsFree ds →
    ∀ t ∈ ds.map fun d => d.fragment.toList, OneLine t
  | [], _ => by simp
  | d :: ds, hf => by
    simp only [floatsFree, Bool.and_eq_true] at hf
    simp only [List.map_cons, List.forall_mem_cons]
    exact ⟨oneLine_fragment d hf.1, oneLine_fragments ds hf.2⟩
end

end Retrace.Datum
