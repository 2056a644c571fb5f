/-! The shortest decimal that reads back as a given double, and the nearest one of that length. All
arithmetic is on natural numbers. -/
namespace Longform.Decimal

/-- Digits `d` and a point position `p`, standing for `0.d · 10^p`. -/
structure Digits where
  digits : List Char
  point : Int
deriving DecidableEq, Repr

/-- A positive double `mantissa · 2^exponent`; `narrow` when the gap below it is half of the gap
above. -/
structure Binary where
  mantissa : Nat
  exponent : Int
  narrow : Bool
deriving DecidableEq, Repr

/-- The finite double with a given bit pattern, its sign left out. -/
def Binary.ofBits (bits : UInt64) : Binary :=
  let e := ((bits >>> 52) &&& 0x7FF).toNat
  let f := (bits &&& 0xFFFFFFFFFFFFF).toNat
  if e = 0 then ⟨f, -1074, false⟩ else ⟨f + Nat.pow 2 52, (e : Int) - 1075, f = 0 && 1 < e⟩

/-- A double and the ends of the interval that rounds to it, over one denominator. -/
structure Interval where
  low : Nat
  value : Nat
  high : Nat
  denominator : Nat
  closed : Bool

def Binary.interval (b : Binary) : Interval :=
  let scale := Nat.pow 2 (b.exponent - 2).toNat
  let below := if b.narrow then 1 else 2
  ⟨(4 * b.mantissa - below) * scale, 4 * b.mantissa * scale, (4 * b.mantissa + 2) * scale,
    Nat.pow 2 (2 - b.exponent).toNat, b.mantissa % 2 = 0⟩

/-- The interval scaled by `10^(-unit)`, so that grid points are whole. -/
def Interval.onGrid (i : Interval) (unit : Int) : Interval :=
  let up := Nat.pow 10 (-unit).toNat
  ⟨i.low * up, i.value * up, i.high * up, i.denominator * Nat.pow 10 unit.toNat, i.closed⟩

def Interval.holds (i : Interval) (n : Nat) : Bool :=
  let x := n * i.denominator
  if i.closed then i.low ≤ x && x ≤ i.high else i.low < x && x < i.high

/-- The whole number nearest to the value among its two neighbours that lie in the interval; the
even one when both are equally near. -/
def Interval.nearest? (i : Interval) : Option Nat :=
  let n := i.value / i.denominator
  let below := i.value - n * i.denominator
  let above := (n + 1) * i.denominator - i.value
  match i.holds n, i.holds (n + 1) with
  | true, true =>
    some (if below < above || (below = above && n % 2 = 0) then n else n + 1)
  | true, false => some n
  | false, true => some (n + 1)
  | false, false => none

/-- How often a fraction below one has to be multiplied by ten to reach one. -/
def tensToOne (denominator : Nat) : Nat → Nat → Nat
  | 0, _ => 0
  | fuel + 1, v => if denominator ≤ v then 0 else tensToOne denominator fuel (10 * v) + 1

/-- The position of the point before the first digit of the value. -/
def Interval.point (i : Interval) : Int :=
  if i.denominator ≤ i.value then ((Nat.toDigits 10 (i.value / i.denominator)).length : Int)
  else 1 - (tensToOne i.denominator 400 i.value : Int)

/-- The first grid of `n`, `n + 1`, … digits that has a point in the interval. -/
def Interval.search (i : Interval) (point : Int) : Nat → Nat → Nat × Int
  | 0, n => (i.value / i.denominator, point - n)
  | fuel + 1, n => match (i.onGrid (point - n)).nearest? with
    | some d => (d, point - n)
    | none => search i point fuel (n + 1)

def trimZeros (ds : List Char) : List Char := (ds.reverse.dropWhile (· = '0')).reverse

/-- The digits of a positive double. -/
def Binary.shortest (b : Binary) : Digits :=
  let i := b.interval
  let (d, unit) := i.search i.point 17 1
  let ds := Nat.toDigits 10 d
  ⟨trimZeros ds, unit + ds.length⟩

end Longform.Decimal
