import Longform.Fault
import Longform.Text.Half

/-! Percent encoding: characters outside a safe set are written as their UTF-8 bytes. -/
namespace Longform.Text

/-- The UTF-8 bytes of a character. -/
def utf8 (c : Char) : List Nat :=
  let n := c.toNat
  if n < 0x80 then [n]
  else if n < 0x800 then [0xC0 + n / 64, 0x80 + n % 64]
  else if n < 0x10000 then [0xE0 + n / 4096, 0x80 + n / 64 % 64, 0x80 + n % 64]
  else [0xF0 + n / 262144, 0x80 + n / 4096 % 64, 0x80 + n / 64 % 64, 0x80 + n % 64]

def upperHexDigit (n : Nat) : Char := (Nat.digitChar n).toUpper

/-- A byte as a percent sign and two digits. -/
def percentByte (b : Nat) : Text := ['%', upperHexDigit (b / 16), upperHexDigit (b % 16)]

def percentChar (c : Char) : Text := (utf8 c).flatMap percentByte

/-- Percent-encodes what is not safe. Halves that stand alone have no bytes. -/
def percentEncode (safe : Char → Bool) (t : Text) : Except Fault Text :=
  if t.any isHalf then .error .encoding
  else .ok (t.flatMap fun c => if safe c then [c] else percentChar c)

/-- The characters that a component of an address may hold as they are. -/
def isComponentChar (c : Char) : Bool :=
  c.isAlphanum || c ∈ ['-', '_', '.', '!', '~', '*', '\'', '(', ')']

end Longform.Text
