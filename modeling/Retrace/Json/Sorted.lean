import Retrace.Json.Basic
/-!
Documents whose records have their fields in the order of the names.
-/
namespace Retrace.Json

/-- Puts a field before the first field with a greater name. -/
def insertField (f : String × Json) : List (String × Json) → List (String × Json)
  | [] => [f]
  | g :: gs => if f.1 < g.1 then f :: g :: gs else g :: insertField f gs

mutual
/-- The document with the fields of its records in order. -/
def sorted : Json → Json
  | list items => list (sortedItems items)
  | record fields => record (sortedFields fields)
  | d => d

def sortedItems : List Json → List Json
  | [] => []
  | d :: ds => d.sorted :: sortedItems ds

def sortedFields : List (String × Json) → List (String × Json)
  | [] => []
  | (k, d) :: fields => insertField (k, d.sorted) (sortedFields fields)
end

end Retrace.Json
