import Longform.Fault
import Longform.Text.Letter

/-! Numbers as people write them: blanks around, a sign in front, digits of any script, and single
underscores between digits. Whole numbers have a limit to their figures, read or written. -/
namespace Longform.Decimal

/-- The most figures of a whole number that is read or written in base ten. -/
def mostFigures : Nat := 4300

/-- Whether a number has more figures than are written. -/
def isLong (n : Int) : Bool := mostFigures < (Text.ofNat n.natAbs).length

/-- The text of a whole number. -/
def write (n : Int) : Except Fault Text := if isLong n then .error .longNumber else .ok (Text.ofInt n)

def isPlainSpace (c : Char) : Bool := c = ' ' || (9 ≤ c.toNat && c.toNat ≤ 13)

/-- Digits of any script as figures; what is neither digit nor blank is spoilt. -/
def plainChar (c : Char) : Char :=
  if c.toNat < 127 then c
  else if Text.isBlank c then ' '
  else match Text.decimalValue? c with
    | some d => Char.ofNat (48 + d)
    | none => '?'

/-- The plain form of a number without blanks around. -/
def plainForm (t : Text) : Text :=
  Text.dropEndWhile isPlainSpace ((t.map plainChar).dropWhile isPlainSpace)

def cutSign : Text → Bool × Text
  | '-' :: r => (true, r)
  | '+' :: r => (false, r)
  | r => (false, r)

/-- The value of a figure or letter as a digit. -/
def digitValue (c : Char) : Nat :=
  if c.isDigit then c.toNat - 48 else if c.isAlpha then c.toLower.toNat - 87 else 99

/-- The value of digits with single underscores between them; `bare` tells that a digit has to come
next. -/
def digitsFrom (base : Nat) : Bool → Nat → Text → Option Nat
  | bare, n, [] => if bare then none else some n
  | bare, n, c :: r =>
    if c = '_' then if bare then none else digitsFrom base true n r
    else if digitValue c < base then digitsFrom base false (base * n + digitValue c) r
    else none

/-- The mark that may stand in front of digits of a base. -/
def baseMark (base : Nat) (c : Char) : Bool :=
  (base = 16 && c.toLower = 'x') || (base = 8 && c.toLower = 'o') || (base = 2 && c.toLower = 'b')

/-- The digits behind the mark of their base, if that stands in front of them. -/
def behindMark (base : Nat) (t : Text) : Text :=
  match t with
  | '0' :: c :: s => if baseMark base c then (if s.head? = some '_' then s.tail else s) else t
  | _ => t

/-- Bases in which a number may have any length. -/
def isUnlimited (base : Nat) : Bool := base = 2 || base = 8 || base = 16

/-- How many figures a text begins with, if those are more than are read. What follows them makes no
difference. -/
def excess? (base : Nat) (t : Text) : Option Nat :=
  let run := t.takeWhile fun c => c = '_' || digitValue c < base
  let figures := (run.filter (· ≠ '_')).length
  if !isUnlimited base && mostFigures < figures && (digitsFrom base true 0 run).isSome then some figures
  else none

/-- The value of a whole number in a base, whatever its length. -/
def value? (base : Nat) (t : Text) : Option Int :=
  let (negative, r) := cutSign (plainForm t)
  (digitsFrom base true 0 (behindMark base r)).map fun n : Nat => if negative then -(n : Int) else n

/-- A whole number in a base, of no more figures than are read. -/
def integer? (base : Nat) (t : Text) : Except Fault Int :=
  match excess? base (behindMark base (cutSign (plainForm t)).2) with
  | some figures => .error (.longLiteral figures)
  | none => match value? base t with
    | some n => .ok n
    | none => .error (.integer t base)

/-- Drops the underscores between figures; none when one stands elsewhere. -/
def withoutUnderscores : Option Char → Text → Option Text
  | _, [] => some []
  | before, c :: r =>
    if c = '_' then
      if before.any Char.isDigit && r.head?.any Char.isDigit then withoutUnderscores (some c) r
      else none
    else (withoutUnderscores (some c) r).map (c :: ·)

/-- The exponent that follows a mantissa; none when something else does. -/
def exponent? : Text → Option Int
  | [] => some 0
  | c :: r =>
    if c.toLower ≠ 'e' then none
    else
      let (negative, digits) := cutSign r
      (digitsFrom 10 true 0 digits).map fun n => if negative then -(n : Int) else n

/-- A number without a sign. -/
def unsigned? (t : Text) : Option Float :=
  let word := t.map Char.toLower
  if word = "inf".toList || word = "infinity".toList then some (1.0 / 0.0)
  else if word = "nan".toList then some (0.0 / 0.0)
  else
    let whole := t.takeWhile Char.isDigit
    let rest := t.dropWhile Char.isDigit
    let (part, rest) := match rest with
      | '.' :: r => (r.takeWhile Char.isDigit, r.dropWhile Char.isDigit)
      | r => ([], r)
    if whole.isEmpty && part.isEmpty then none
    else match exponent? rest, digitsFrom 10 true 0 (whole ++ part) with
      | some e, some n => some (nearest n (e - part.length))
      | _, _ => none

/-- A number with an optional fraction and exponent, or one of the words for values without digits. -/
def number? (t : Text) : Option Float :=
  (withoutUnderscores none (plainForm t)).bind fun u =>
    let (negative, r) := cutSign u
    (unsigned? r).map fun x => if negative then -x else x

end Longform.Decimal
