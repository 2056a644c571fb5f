import Longform.Calendar
import Longform.Decimal.Number
import Longform.Dictionary

/-! Values of metadata, attributes and chart settings. Mappings keep the order of their entries, and
a key that is set again keeps its place. -/
namespace Longform

inductive Value
  | null
  | bool (b : Bool)
  | int (n : Int)
  | float (x : Float)
  | text (t : Text)
  | list (items : List Value)
  | map (entries : List (Value × Value))
  | date (d : Calendar.Date)
  | moment (m : Calendar.Moment)
  | bytes (bs : List UInt8)
  | set (members : List Value)
  /-- A reference back to the mapping, or else the list, that holds it. -/
  | cycle (mapping : Bool)
deriving Inhabited

namespace Value

/-- The name of a value's kind in messages. -/
def kind : Value → Text
  | .null => "NoneType".toList
  | .bool _ => "bool".toList
  | .int _ => "int".toList
  | .float _ => "float".toList
  | .text _ => "str".toList
  | .list _ => "list".toList
  | .map _ => "dict".toList
  | .date _ => "date".toList
  | .moment _ => "datetime".toList
  | .bytes _ => "bytes".toList
  | .set _ => "set".toList
  | .cycle mapping => if mapping then "dict".toList else "list".toList

/-- Values that may be keys. -/
def isKey : Value → Bool
  | .list _ | .map _ | .set _ | .cycle _ => false
  | _ => true

/-- A finite double that is a whole number. -/
def whole? (x : Float) : Option Int :=
  let bits := x.toBits
  if (bits >>> 52) &&& 0x7FF = 0x7FF then none
  else
    let b := Decimal.Binary.ofBits bits
    let n : Option Nat :=
      if 0 ≤ b.exponent then some (b.mantissa * Nat.pow 2 b.exponent.toNat)
      else
        let d := Nat.pow 2 (-b.exponent).toNat
        if b.mantissa % d = 0 then some (b.mantissa / d) else none
    n.map fun k => if bits >>> 63 = 1 then -(k : Int) else k

/-- The integer that a number is, truth values counting as zero and one. -/
def integer? : Value → Option Int
  | .bool b => some (if b then 1 else 0)
  | .int n => some n
  | .float x => whole? x
  | _ => none

/-- Whether two values are the same key: numbers by value, whatever their kind, aware moments by
their instant, all else by equality. -/
def sameKey (a b : Value) : Bool :=
  match a.integer?, b.integer? with
  | some m, some n => m = n
  | some _, none | none, some _ => false
  | none, none => match a, b with
    | .null, .null => true
    | .float x, .float y => x == y || (x.isNaN && y.isNaN)
    | .text s, .text t => s = t
    | .date d, .date e => d = e
    | .moment m, .moment n => m.offset.isSome = n.offset.isSome && m.instant = n.instant
    | .bytes s, .bytes t => s = t
    | _, _ => false

def find? (k : Value) : List (Value × Value) → Option Value
  | [] => none
  | (k', v) :: r => if sameKey k' k then some v else find? k r

/-- The value of a textual key. -/
def field? (name : Text) (entries : List (Value × Value)) : Option Value := find? (.text name) entries

def setEntry (k v : Value) : List (Value × Value) → List (Value × Value)
  | [] => [(k, v)]
  | (k', v') :: r => if sameKey k' k then (k', v) :: r else (k', v') :: setEntry k v r

/-- Entries read in order, the last value of a key winning. -/
def ofEntries (es : List (Value × Value)) : List (Value × Value) :=
  es.foldl (fun acc (k, v) => setEntry k v acc) []

/-- Null, false, zero and whatever is empty count as absent settings. -/
def isTruthy : Value → Bool
  | .null => false
  | .bool b => b
  | .int n => n ≠ 0
  | .float x => x != 0.0
  | .text t => !t.isEmpty
  | .list xs => !xs.isEmpty
  | .map es => !es.isEmpty
  | .bytes bs => !bs.isEmpty
  | .set ms => !ms.isEmpty
  | .date _ | .moment _ | .cycle _ => true

end Value
end Longform
