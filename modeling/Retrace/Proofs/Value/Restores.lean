import Retrace.Proofs.Json.Restores
import Retrace.Proofs.Value

/-! The record of a value is read as that value. -/
namespace Retrace.Value

open Json

variable {room : Nat} {name : String} {kind : Kind} {d : Json} {v : Value}

mutual
/-- How deep lists are nested in a value. -/
def depth : Value → Nat
  | list items => depths items + 1
  | _ => 0

def depths : List Value → Nat
  | [] => 0
  | v :: vs => max v.depth (depths vs)
end

mutual
/-- Whether no part of a value is a floating point number or an integer of more than sixty-four
bits. -/
def exact : Value → Bool
  | int n => fits n
  | float _ => false
  | list items => exacts items
  | _ => true

/-- Whether no part of some values is a floating point number or an integer of more than sixty-four
bits. -/
def exacts : List Value → Bool
  | [] => true
  | v :: vs => v.exact && exacts vs
end

theorem toJsons_eq_map (vs : List Value) : toJsons vs = vs.map toJson := by
  induction vs with
  | nil => rfl
  | cons v vs ih => rw [toJsons, ih, List.map_cons]

theorem notNull_toJson (v : Value) : NotNull v.toJson := by
  cases v <;> exact notNull_record _

theorem restores_kind (hk : kinds.lookup name = some kind)
    (h : Restores (contentOf (Decoder.list read room) room kind) d v) :
    Restores (read (room + 1)) (.record [("type", .text name), ("value", d)]) v := by
  have ht := reads_tagged sound_recordLetters hk h
  rw [taggedText, ← render_text] at ht
  rw [Restores, read_succ, render_record]
  exact ht

theorem restores_int {n : Int} (hn : fits n) (room : Nat) :
    Restores (read (room + 1)) (toJson (int n)) (int n) := by
  have hb := fits_iff.mp hn
  have hlo : -0x8000000000000000 ≤ n := hb.1
  have hhi : n ≤ 0x7FFFFFFFFFFFFFFF := hb.2
  have hw := Decoder.reads_whole hb hlo (by omega) "i64" room
  exact restores_kind rfl (hw.map int)

theorem restores_char (c : Char) (room : Nat) :
    Restores (read (room + 1)) (toJson (char c)) (char c) := by
  have hc := Decoder.reads_char sound_recordLetters c room
  rw [← String.toList_singleton, ← render_text] at hc
  exact restores_kind rfl (hc.map char)

theorem restores_null (room : Nat) : Restores (read (room + 1)) (toJson null) null := by
  rw [Restores, read_succ, toJson, render_record]
  simp only [writtenFields, List.map_cons, List.map_nil, render_text]
  exact reads_null sound_recordLetters

mutual
/-- The record of a value is read as the value when the room is enough for its lists. -/
theorem restores_toJson : ∀ (v : Value) (room : Nat), v.exact → 2 * v.depth + 1 ≤ room →
    Restores (read room) v.toJson v
  | v, 0, _, hr => by omega
  | text s, room + 1, _, _ => restores_kind rfl ((restores_text room s).map text)
  | int n, room + 1, he, _ => restores_int (by simpa only [exact] using he) room
  | float _, _ + 1, he, _ => by simp [exact] at he
  | truth b, room + 1, _, _ => restores_kind rfl ((Decoder.reads_truth b room).map truth)
  | char c, room + 1, _, _ => restores_char c room
  | null, room + 1, _, _ => restores_null room
  | object s, room + 1, _, _ => restores_kind rfl ((restores_text room s).map object)
  | list items, room + 1, he, hr => by
    have hd : 2 * depths items + 2 ≤ room := by
      simp only [depth] at hr
      omega
    obtain ⟨room, rfl⟩ : ∃ k, room = k + 1 := ⟨room - 1, by omega⟩
    have hitems := restores_toJsons items room (by simpa only [exact] using he) (by omega)
    have hlist := restores_list hitems
    rw [← toJsons_eq_map] at hlist
    exact restores_kind rfl (hlist.map list)

/-- The records of values are read one by one as the values. -/
theorem restores_toJsons : ∀ (vs : List Value) (room : Nat), exacts vs → 2 * depths vs + 1 ≤ room →
    ∀ v ∈ vs, Restores (read room) v.toJson v
  | [], _, _, _ => by simp
  | v :: vs, room, he, hr => by
    simp only [exacts, Bool.and_eq_true] at he
    have hmax : 2 * v.depth + 1 ≤ room ∧ 2 * depths vs + 1 ≤ room := by
      simp only [depths] at hr
      omega
    exact List.forall_mem_cons.mpr
      ⟨restores_toJson v room he.1 hmax.1, restores_toJsons vs room he.2 hmax.2⟩
end

end Retrace.Value
