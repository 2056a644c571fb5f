import Longform.Text.LetterTable
import Longform.Text.PunctuationTable

/-! Character classes: letters and digits of every script, punctuation, symbols, controls.
ASCII is decided first, so that only other characters reach the tables. -/
namespace Longform.Text

/-- Whether a code point lies in one of the increasing ranges. -/
def inRanges (n : Nat) : List (Nat × Nat) → Bool
  | [] => false
  | (lo, hi) :: r => if n < lo then false else n ≤ hi || inRanges n r

/-- Letters, digits and numerals of every script. -/
def isLetterOrNumber (c : Char) : Bool :=
  if c.toNat < 128 then c.isAlphanum else inRanges c.toNat letterRanges

/-- Characters of a word: letters, numbers and the underscore. -/
def isWord (c : Char) : Bool := c = '_' || isLetterOrNumber c

def isAsciiPunctuation (c : Char) : Bool :=
  let n := c.toNat
  (33 ≤ n && n ≤ 47) || (58 ≤ n && n ≤ 64) || (91 ≤ n && n ≤ 96) || (123 ≤ n && n ≤ 126)

def isAsciiSymbol (c : Char) : Bool :=
  c = '$' || c = '+' || c = '<' || c = '=' || c = '>' || c = '^' || c = '\x60' || c = '|' || c = '~'

/-- Punctuation in the narrow sense, without symbols. -/
def isPunctuation (c : Char) : Bool :=
  if c.toNat < 128 then isAsciiPunctuation c && !isAsciiSymbol c
  else inRanges c.toNat punctuationRanges

/-- Punctuation or symbol. -/
def isMark (c : Char) : Bool :=
  if c.toNat < 128 then isAsciiPunctuation c
  else inRanges c.toNat punctuationRanges || inRanges c.toNat symbolRanges

def isControl (c : Char) : Bool := c.toNat < 32 || (127 ≤ c.toNat && c.toNat < 160)

/-- Space, line and paragraph separators. -/
def isSeparator (c : Char) : Bool :=
  let n := c.toNat
  n == 32 || n == 0xA0 || n == 0x1680 || (0x2000 ≤ n && n ≤ 0x200A) || n == 0x2028 ||
    n == 0x2029 || n == 0x202F || n == 0x205F || n == 0x3000

/-- The range of decimal digits that holds a code point gives its value modulo ten. -/
def decimalIn (n : Nat) : List (Nat × Nat) → Option Nat
  | [] => none
  | (lo, hi) :: r => if n < lo then none else if n ≤ hi then some ((n - lo) % 10) else decimalIn n r

/-- The value of a decimal digit of any script. -/
def decimalValue? (c : Char) : Option Nat :=
  if c.isDigit then some (c.toNat - 48) else if c.toNat < 128 then none
  else decimalIn c.toNat decimalRanges

end Longform.Text
