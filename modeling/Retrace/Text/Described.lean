import Retrace.Text.HiddenRanges
import Retrace.Text.Ranges
/-!
Texts and characters as they are shown inside the description of a larger value: in quotes, with
what cannot be seen shown by its number.
-/
namespace Retrace.Text

def hexDigits (n : Nat) : List Char := Nat.toDigits 16 n

/-- A character shown by its number. -/
def byNumber (c : Char) : List Char :=
  '\\' :: 'u' :: Char.ofNat 123 :: hexDigits c.toNat ++ [Char.ofNat 125]

/-- Whether a character is shown by its number: it combines with the one before it, or cannot be
seen. -/
def isHidden (c : Char) : Bool :=
  inRanges extendRanges c.toNat || c.toNat < 32 || c.toNat = 127 || inRanges hiddenRanges c.toNat

/-- A character as it is shown between quotes of the kind `quote`. -/
def describeChar (quote c : Char) : List Char :=
  if c.toNat = 0 then ['\\', '0']
  else if c = '\t' then ['\\', 't']
  else if c = '\r' then ['\\', 'r']
  else if c = '\n' then ['\\', 'n']
  else if c = '\\' ∨ c = quote then ['\\', c]
  else if isHidden c then byNumber c
  else [c]

def describe (s : List Char) : List Char := '"' :: s.flatMap (describeChar '"') ++ ['"']

def describeSingle (c : Char) : List Char := '\'' :: describeChar '\'' c ++ ['\'']

end Retrace.Text
