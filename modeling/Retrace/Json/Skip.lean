import Retrace.Json.Numeral
/-!
Passing over a part of a document that nobody asked for. Its brackets have to match, but it may be
nested to any depth.
-/
namespace Retrace.Json

open Retrace.Text

def opening : Piece := some (Char.ofNat 123)

def closing : Piece := some (Char.ofNat 125)

namespace Skip

/-- What encloses a place. -/
inductive Frame where
  | list
  | record
  deriving DecidableEq, Repr

def Frame.close : Frame → Piece
  | list => some ']'
  | record => closing

/-- The part of a document that a frame encloses. -/
def Frame.part : Frame → Part
  | list => .list
  | record => .record

/-- Where reading stands: before a value, before the first value of a frame or its end, after a
value, or before the name of a field. -/
inductive Stage where
  | value
  | first
  | after
  | name

/-- Passes over a scalar that starts with a mark. -/
def scalar (p : Piece) : Reader Unit :=
  if p = some 'n' then Reader.word "null".toList
  else if p = some 't' then Reader.word "true".toList
  else if p = some 'f' then Reader.word "false".toList
  else if p = some '"' then do Reader.skip; Reader.skipText
  else if p = some '-' || (Numeral.digit? p).isSome then Numeral.skip
  else Reader.fail .noValue 1

/-- Goes on at a stage inside some frames, the innermost first. -/
def go : Nat → List Frame → Stage → Reader Unit
  | 0, _, _ => pure ()
  | fuel + 1, frames, .value => do
    match ← Reader.next with
    | none => Reader.fail (.ended .value) 0
    | some p =>
      if p = some '[' then do Reader.skip; go fuel (.list :: frames) .first
      else if p = opening then do Reader.skip; go fuel (.record :: frames) .first
      else do scalar p; go fuel frames .after
  | _ + 1, [], _ => pure ()
  | fuel + 1, frame :: frames, .first => do
    match ← Reader.next with
    | none => Reader.fail (.ended frame.part) 0
    | some p =>
      if p = frame.close then do Reader.skip; go fuel frames .after
      else go fuel (frame :: frames) (if frame = .record then .name else .value)
  | fuel + 1, frame :: frames, .after => do
    match ← Reader.next with
    | none => Reader.fail (.ended frame.part) 0
    | some p =>
      if p = frame.close then do Reader.skip; go fuel frames .after
      else if p = some ',' then do
        Reader.skip
        go fuel (frame :: frames) (if frame = .record then .name else .value)
      else Reader.fail (.noComma frame.part) 1
  | fuel + 1, frames, .name => do
    match ← Reader.next with
    | none => Reader.fail (.ended .record) 0
    | some p =>
      if p ≠ some '"' then Reader.fail .keyNoText 1
      Reader.skip
      Reader.skipText
      match ← Reader.next with
      | none => Reader.fail (.ended .record) 0
      | some p =>
        if p ≠ some ':' then Reader.fail .noColon 1
        Reader.skip
        go fuel frames .value

end Skip

def skipValue : Reader Unit := fun s => Skip.go (3 * s.length + 3) [] .value s

end Retrace.Json
