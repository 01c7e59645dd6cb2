import Retrace.Text.Described
import Retrace.Text.Search
/-!
Descriptions of data that have no other form: their structure spelled out with names, brackets and
quotes.
-/
namespace Retrace

open Text

/-- The structure of a datum. -/
inductive Description where
  | whole (n : Int)
  | text (s : String)
  | char (c : Char)
  | tuple (items : List Description)
  | list (items : List Description)
  | table (rows : List (Description × Description))
  | record (name : String) (fields : List (String × Description))
  | variant (name : String) (items : List Description)

namespace Description

/-- Items in brackets. -/
def enclose (left right : Char) (items : List (List Char)) : List Char :=
  left :: join ", ".toList items ++ [right]

mutual
/-- The description as text. -/
def spell : Description → List Char
  | whole n => (toString n).toList
  | text s => describe s.toList
  | char c => describeSingle c
  | tuple [d] => '(' :: d.spell ++ [',', ')']
  | tuple items => enclose '(' ')' (spellAll items)
  | list items => enclose '[' ']' (spellAll items)
  | table rows => enclose (Char.ofNat 123) (Char.ofNat 125) (spellRows rows)
  | record name fields =>
    name.toList ++ ' ' :: Char.ofNat 123 :: ' ' :: join ", ".toList (spellFields fields) ++
      [' ', Char.ofNat 125]
  | variant name [] => name.toList
  | variant name items => name.toList ++ enclose '(' ')' (spellAll items)

def spellAll : List Description → List (List Char)
  | [] => []
  | d :: ds => d.spell :: spellAll ds

def spellRows : List (Description × Description) → List (List Char)
  | [] => []
  | (k, d) :: rows => (k.spell ++ ':' :: ' ' :: d.spell) :: spellRows rows

def spellFields : List (String × Description) → List (List Char)
  | [] => []
  | (name, d) :: fields => (name.toList ++ ':' :: ' ' :: d.spell) :: spellFields fields
end

def render (d : Description) : String := String.ofList d.spell

end Description

end Retrace
