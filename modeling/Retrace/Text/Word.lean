import Retrace.Text.Ranges
import Retrace.Text.WordRanges
/-!
The characters of identifiers: an identifier starts with an underscore or a character of the
property XID_Start and goes on with characters of the property XID_Continue.
-/
namespace Retrace.Text

variable {c : Char}

def isLetter (c : Char) : Bool :=
  ('a' ≤ c && c ≤ 'z') || ('A' ≤ c && c ≤ 'Z')

def isDigit (c : Char) : Bool := '0' ≤ c && c ≤ '9'

def digitValue (c : Char) : Nat := c.toNat - '0'.toNat

def hexValue? (c : Char) : Option Nat :=
  if isDigit c then some (c.toNat - '0'.toNat)
  else if 'a' ≤ c && c ≤ 'f' then some (c.toNat - 'a'.toNat + 10)
  else if 'A' ≤ c && c ≤ 'F' then some (c.toNat - 'A'.toNat + 10)
  else none

/-- A character that can start an identifier. -/
def startsWord (c : Char) : Bool :=
  isLetter c || c == '_' || (128 ≤ c.toNat && inRanges wordStartRanges c.toNat)

/-- A character that can go on with an identifier. -/
def continuesWord (c : Char) : Bool :=
  isLetter c || isDigit c || c == '_' || (128 ≤ c.toNat && inRanges wordRestRanges c.toNat)

def isWord : List Char → Bool
  | [] => false
  | c :: s => startsWord c && s.all continuesWord

end Retrace.Text
