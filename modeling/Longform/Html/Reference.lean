import Longform.Decimal.Read
import Longform.Html.Entity
import Longform.Text.Half

/-! Character references: what numbers stand for, and how references in attribute values are read. -/
namespace Longform.Html

/-- What the numbers from 128 to 159 are taken for; five of them stand for nothing. -/
def westernChars : List Nat := [0x20AC, 0, 0x201A, 0x192, 0x201E, 0x2026, 0x2020, 0x2021, 0x2C6, 0x2030,
  0x160, 0x2039, 0x152, 0, 0x17D, 0, 0, 0x2018, 0x2019, 0x201C, 0x201D, 0x2022, 0x2013, 0x2014, 0x2DC,
  0x2122, 0x161, 0x203A, 0x153, 0, 0x17E, 0x178]

/-- A number from 128 to 159 as it is meant. -/
def western? (n : Nat) : Option Char :=
  if n < 128 || 159 < n then none
  else match westernChars.getD (n - 128) 0 with
    | 0 => none
    | m => some (Char.ofNat m)

def isCharacter (n : Nat) : Bool := n < 0xD800 || (0xDFFF < n && n ≤ 0x10FFFF)

/-- The character of a number in running text; halves of pairs are kept. -/
def textNumber (n : Nat) : Char :=
  match western? n with
  | some c => c
  | none =>
    if isCharacter n then Char.ofNat n else if n ≤ 0x10FFFF then Text.ofHalf n else '\uFFFD'

/-- Numbers that stand for nothing in an attribute value. -/
def isVoidNumber (n : Nat) : Bool :=
  (0 < n && n < 9) || n = 11 || (14 ≤ n && n < 32) || (127 ≤ n && n < 160) ||
    (0xFDD0 ≤ n && n ≤ 0xFDEF) || n % 0x10000 = 0xFFFE || n % 0x10000 = 0xFFFF

/-- The characters of a number in an attribute value. -/
def valueNumber (n : Nat) : Text :=
  if n = 0 then ['\uFFFD']
  else if 128 ≤ n && n < 160 then [(western? n).getD (Char.ofNat n)]
  else if !isCharacter n then ['\uFFFD']
  else if isVoidNumber n then []
  else [Char.ofNat n]

def isHexDigit (c : Char) : Bool := c.isDigit || ('a' ≤ c.toLower && c.toLower ≤ 'f')

def decimalValue (t : Text) : Nat := t.foldl (fun n c => 10 * n + (c.toNat - 48)) 0

/-- A number as it is written in a reference. -/
inductive Numeral
  | decimal (figures : Text)
  | hex (figures : Text)
deriving DecidableEq, Repr

/-- The number that is meant. Decimal ones have a limit to their figures. -/
def Numeral.value : Numeral → Except Fault Nat
  | .decimal figures =>
    if Decimal.mostFigures < figures.length then .error (.longLiteral figures.length)
    else .ok (decimalValue figures)
  | .hex figures => .ok (hexValue figures)

/-- A number behind an ampersand and `#`, with what follows it. -/
def numeral? (t : Text) : Option (Numeral × Text) :=
  let decimal := t.takeWhile Char.isDigit
  if !decimal.isEmpty then some (.decimal decimal, t.drop decimal.length)
  else match t with
    | x :: r =>
      let hex := r.takeWhile isHexDigit
      if x.toLower = 'x' && !hex.isEmpty then some (.hex hex, r.drop hex.length) else none
    | [] => none

def isNameEnd (c : Char) : Bool :=
  c = '\t' || c = '\n' || c = '\x0c' || c = ' ' || c = '<' || c = '&' || c = '#' || c = ';'

/-- The longest beginning of a name, of at most `n` characters and more than one, that stands
without a semicolon, and how long it is. -/
def bareName? (name : Text) : Nat → Option (Text × Nat)
  | 0 => none
  | n + 1 =>
    if n = 0 then none
    else match entity? (name.take (n + 1)) with
      | some e => if e.bare then some (e.text, n + 1) else bareName? name n
      | none => bareName? name n

/-- The characters of a reference by name behind an ampersand, and what follows it. -/
def named (t : Text) : Text × Text :=
  let name := (t.take 32).takeWhile fun c => !isNameEnd c
  let rest := t.drop name.length
  let ended := rest.head? = some ';'
  match if ended then entity? name else none with
  | some e => (e.text, rest.tail)
  | none => match bareName? name name.length with
    | some (chars, n) => (chars, t.drop n)
    | none => (['&'], t)

/-- An attribute value with its references read. -/
def unescapeFrom : Nat → Text → Except Fault Text
  | 0, t => .ok t
  | _, [] => .ok []
  | fuel + 1, c :: r =>
    if c ≠ '&' then (unescapeFrom fuel r).map (c :: ·)
    else match r with
      | '#' :: s => match numeral? s with
        | some (m, rest) => do
          let n ← m.value
          (unescapeFrom fuel (if rest.head? = some ';' then rest.tail else rest)).map (valueNumber n ++ ·)
        | none => (unescapeFrom fuel r).map (c :: ·)
      | _ =>
        let (chars, rest) := named r
        (unescapeFrom fuel rest).map (chars ++ ·)

def unescape (t : Text) : Except Fault Text := unescapeFrom t.length t

end Longform.Html
