import Longform.Decimal.Shortest
import Longform.Text.Basic

/-! How numbers with a fraction are written and read. Positional from 0.0001 to below 10^16, with a
fraction always shown; otherwise one digit before the point and an exponent of two digits or more. -/
namespace Longform.Decimal

/-- The exponent with its sign and at least two digits. -/
def exponentText (e : Int) : Text :=
  let ds := Nat.toDigits 10 e.natAbs
  (if e < 0 then '-' else '+') :: (if ds.length < 2 then '0' :: ds else ds)

/-- The text of a positive number. -/
def Digits.text (d : Digits) : Text :=
  let n : Int := d.digits.length
  if d.point < -3 || 16 < d.point then
    let mantissa := match d.digits with
      | [] => []
      | [c] => [c]
      | c :: r => c :: '.' :: r
    mantissa ++ 'e' :: exponentText (d.point - 1)
  else if d.point ≤ 0 then "0.".toList ++ List.replicate (-d.point).toNat '0' ++ d.digits
  else if n ≤ d.point then d.digits ++ List.replicate (d.point - n).toNat '0' ++ ".0".toList
  else d.digits.take d.point.toNat ++ '.' :: d.digits.drop d.point.toNat

/-- The words for the values that have no digits. -/
structure Words where
  infinity : Text
  nan : Text

/-- The text of a double. -/
def text (w : Words) (x : Float) : Text :=
  let bits := x.toBits
  let sign : Text := if bits >>> 63 = 1 then ['-'] else []
  if (bits >>> 52) &&& 0x7FF = 0x7FF then
    if bits &&& 0xFFFFFFFFFFFFF = 0 then sign ++ w.infinity else w.nan
  else
    let b := Binary.ofBits bits
    if b.mantissa = 0 then sign ++ "0.0".toList else sign ++ b.shortest.text

/-- The double nearest to `mantissa · 10^exponent`; exponents far outside the range of doubles are
decided without computing the power. -/
def nearest (mantissa : Nat) (exponent : Int) : Float :=
  let size : Int := (Nat.toDigits 10 mantissa).length + exponent
  if mantissa = 0 || size < -400 then 0.0
  else if 400 < size then 1.0 / 0.0
  else Float.ofScientific mantissa (exponent < 0) exponent.natAbs

end Longform.Decimal
