import Longform.Text.Basic

/-! Halves of pairs of 16-bit units. A half that stands alone is no character; a range of private
characters stands for such halves. -/
namespace Longform.Text

def halfBase : Nat := 0x10F000

/-- The character that stands for a unit from the range of halves. -/
def ofHalf (unit : Nat) : Char := Char.ofNat (halfBase + (unit - 0xD800))

/-- The unit that a character stands for. -/
def half? (c : Char) : Option Nat :=
  if halfBase ≤ c.toNat && c.toNat < halfBase + 0x800 then some (0xD800 + (c.toNat - halfBase))
  else none

def isHalf (c : Char) : Bool := (half? c).isSome
/-- The halves that begin a pair. -/
def isFirstHalf (c : Char) : Bool := (half? c).any (· < 0xDC00)
/-- The halves that end a pair. -/
def isSecondHalf (c : Char) : Bool := (half? c).any (0xDC00 ≤ ·)

end Longform.Text
