import Longform.Html.Entity
import Longform.Text.Letter

/-! Escapes in source text: a backslash before punctuation, and character references. -/
namespace Longform.Markdown

/-- White space of running text, controls apart. -/
def isWhite (c : Char) : Bool :=
  let n := c.toNat
  (0x2000 ≤ n && n ≤ 0x200A) || (9 ≤ n && n ≤ 13) || n == 0x20 || n == 0xA0 || n == 0x1680 ||
    n == 0x202F || n == 0x205F || n == 0x3000

/-- Space and tab. -/
def isGap (c : Char) : Bool := c = ' ' || c = '\t'

/-- Code points that a reference may stand for: no surrogates, no noncharacters, no controls. -/
def isReferable (n : Nat) : Bool :=
  !((0xD800 ≤ n && n ≤ 0xDFFF) || (0xFDD0 ≤ n && n ≤ 0xFDEF) || n % 0x10000 == 0xFFFF ||
    n % 0x10000 == 0xFFFE || n ≤ 8 || n == 0xB || (0xE ≤ n && n ≤ 0x1F) ||
    (0x7F ≤ n && n ≤ 0x9F) || 0x10FFFF < n)

def decimal (t : Text) : Nat := t.foldl (fun n c => 10 * n + (c.toNat - 48)) 0

def isHex (c : Char) : Bool := c.isDigit || ('a' ≤ c.toLower && c.toLower ≤ 'f')

/-- The number that `#` and figures write, in base ten or, after an x, sixteen. -/
def numeric? (maxDecimal maxHex : Nat) : Text → Option Nat
  | '#' :: x :: ds =>
    if x = 'x' || x = 'X' then
      if ds.isEmpty || maxHex < ds.length || !ds.all isHex then none else some (Html.hexValue ds)
    else if maxDecimal < ds.length + 1 || !(x :: ds).all Char.isDigit then none
    else some (decimal (x :: ds))
  | _ => none

/-- What stands between an ampersand and the semicolon behind it, and what follows. -/
def referenceName? (t : Text) : Option (Text × Text) :=
  match t with
  | '&' :: c :: r =>
    let name := c :: r.takeWhile Char.isAlphanum
    match r.dropWhile Char.isAlphanum with
    | ';' :: s =>
      if (c.isAlpha || c = '#') && 2 ≤ name.length && name.length ≤ 32 then some (name, s) else none
    | _ => none
  | _ => none

/-- The characters of a reference in a link, none when it stands for nothing. -/
def referenceText? (name : Text) : Option Text :=
  match Html.entity? name with
  | some e => some e.text
  | none => match numeric? 8 8 name with
    | some n => if isReferable n then some [Char.ofNat n] else none
    | none => none

/-- Escapes of links, titles and info strings written out. -/
def unescapeFrom : Nat → Text → Text
  | 0, t => t
  | _, [] => []
  | fuel + 1, c :: r =>
    match c, r with
    | '\\', d :: s =>
      if Text.isAsciiPunctuation d then d :: unescapeFrom fuel s else c :: unescapeFrom fuel r
    | _, _ => match referenceName? (c :: r) with
      | none => c :: unescapeFrom fuel r
      | some (name, s) => match referenceText? name with
        | some t => t ++ unescapeFrom fuel s
        | none => '&' :: name ++ ';' :: unescapeFrom fuel s

def unescape (t : Text) : Text := unescapeFrom t.length t

end Longform.Markdown
