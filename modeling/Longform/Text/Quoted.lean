import Longform.Text.Half
import Longform.Text.Letter
import Longform.Text.UnprintableTable

/-! Quoted texts: a text between quotes with everything unprintable escaped. -/
namespace Longform.Text

/-- A number in base sixteen with leading zeros up to a width. -/
def hex (width n : Nat) : Text :=
  let ds := Nat.toDigits 16 n
  List.replicate (width - ds.length) '0' ++ ds

def isPrintable (c : Char) : Bool :=
  if c.toNat < 128 then 32 ≤ c.toNat && c.toNat < 127 else !inRanges c.toNat unprintableRanges

/-- A character inside quotes `q`. -/
def quoteChar (q c : Char) : Text :=
  if c = q || c = '\\' then ['\\', c]
  else if c = '\n' then "\\n".toList
  else if c = '\r' then "\\r".toList
  else if c = '\t' then "\\t".toList
  else if isPrintable c then [c]
  else if c.toNat < 256 then '\\' :: 'x' :: hex 2 c.toNat
  else match half? c with
    | some unit => '\\' :: 'u' :: hex 4 unit
    | none =>
      if c.toNat < 65536 then '\\' :: 'u' :: hex 4 c.toNat else '\\' :: 'U' :: hex 8 c.toNat

/-- Single quotes, unless the text holds one and no double quote. -/
def quoted (t : Text) : Text :=
  let q := if '\'' ∈ t ∧ '"' ∉ t then '"' else '\''
  q :: t.flatMap (quoteChar q) ++ [q]

/-- A byte inside quotes `q`: everything beyond ASCII is escaped. -/
def quoteByte (q : Char) (b : UInt8) : Text :=
  let c := Char.ofNat b.toNat
  if 127 ≤ b.toNat then '\\' :: 'x' :: hex 2 b.toNat else quoteChar q c

def quotedBytes (bs : List UInt8) : Text :=
  let q := if 39 ∈ bs ∧ 34 ∉ bs then '"' else '\''
  'b' :: q :: bs.flatMap (quoteByte q) ++ [q]

end Longform.Text
