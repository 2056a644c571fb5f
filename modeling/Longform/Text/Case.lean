import Longform.Text.Basic
import Longform.Text.CaseTable

/-! Lower and upper case, character by character. -/
namespace Longform.Text

/-- The shift of the run that holds a code point. -/
def shiftOf (n : Nat) : List (Nat × Nat × Nat × Int) → Int
  | [] => 0
  | (lo, hi, step, d) :: r =>
    if lo ≤ n && n ≤ hi && (n - lo) % step == 0 then d else shiftOf n r

def mapCase (shifts : List (Nat × Nat × Nat × Int)) (expansions : List (Nat × List Nat))
    (c : Char) : Text :=
  match expansions.lookup c.toNat with
  | some xs => xs.map Char.ofNat
  | none => [Char.ofNat (Int.toNat (c.toNat + shiftOf c.toNat shifts))]

def lowerChar (c : Char) : Text :=
  if c.toNat < 128 then [c.toLower] else mapCase lowerShifts lowerExpansions c

def upperChar (c : Char) : Text :=
  if c.toNat < 128 then [c.toUpper] else mapCase upperShifts upperExpansions c

def lower (t : Text) : Text := t.flatMap lowerChar
def upper (t : Text) : Text := t.flatMap upperChar

/-- The ASCII letter that a character stands for when case is ignored: the long s, the two foreign
forms of i and the Kelvin sign stand for ASCII letters too. -/
def foldChar (c : Char) : Char :=
  if c = 'ſ' then 's' else if c = 'ı' || c = 'İ' then 'i' else if c = '\u212A' then 'k' else c.toLower

end Longform.Text
