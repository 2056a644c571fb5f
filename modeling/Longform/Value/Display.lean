import Longform.Decimal.Read
import Longform.Text.Quoted

/-! How values are written: as themselves, and as JSON text in ASCII. A value is not written when it holds
a number with too many figures, or when its collections lie deeper in each other than there is room for. -/
namespace Longform.Value

def plainNumber (x : Float) : Text := Decimal.text ⟨"inf".toList, "nan".toList⟩ x

def jsonNumber (x : Float) : Text := Decimal.text ⟨"Infinity".toList, "NaN".toList⟩ x

/-- A UTF-16 unit as an escape. -/
def unitEscape (n : Nat) : Text := '\\' :: 'u' :: Text.hex 4 n

def jsonChar (c : Char) : Text :=
  if c = '"' then ['\\', '"']
  else if c = '\\' then ['\\', '\\']
  else if c = '\n' then ['\\', 'n']
  else if c = '\r' then ['\\', 'r']
  else if c = '\t' then ['\\', 't']
  else if c = '\x08' then ['\\', 'b']
  else if c = '\x0c' then ['\\', 'f']
  else if 32 ≤ c.toNat && c.toNat < 127 then [c]
  else if c.toNat < 65536 then unitEscape c.toNat
  else match Text.half? c with
    | some unit => unitEscape unit
    | none =>
      let n := c.toNat - 65536
      unitEscape (0xD800 + n / 1024) ++ unitEscape (0xDC00 + n % 1024)

def jsonText (t : Text) : Text := '"' :: t.flatMap jsonChar ++ ['"']

/-- A distance from universal time, in minutes. -/
def zone (offset : Int) : Text :=
  if offset = 0 then "datetime.timezone.utc".toList
  else "datetime.timezone(".toList ++ Calendar.spanText offset ++ [')']

mutual
/-- A value as the programs that print it write it. -/
def repr : Value → Text
  | .null => "None".toList
  | .bool b => if b then "True".toList else "False".toList
  | .int n => Text.ofInt n
  | .float x => plainNumber x
  | .text t => Text.quoted t
  | .list xs => '[' :: reprItems xs ++ [']']
  | .map es => '\x7b' :: reprEntries es ++ ['\x7d']
  | .date d => "datetime.date(".toList ++ Text.join ", ".toList
      [Text.ofNat d.year, Text.ofNat d.month, Text.ofNat d.day] ++ [')']
  | .moment m => "datetime.datetime(".toList ++ Text.join ", ".toList
      ([Text.ofNat m.date.year, Text.ofNat m.date.month, Text.ofNat m.date.day,
        Text.ofNat m.hour, Text.ofNat m.minute] ++
        (if m.second = 0 && m.microsecond = 0 then [] else [Text.ofNat m.second]) ++
        (if m.microsecond = 0 then [] else [Text.ofNat m.microsecond]) ++
        (match m.offset with
          | none => []
          | some o => ["tzinfo=".toList ++ zone o])) ++ [')']
  | .bytes bs => Text.quotedBytes bs
  | .set ms => if ms.isEmpty then "set()".toList else '\x7b' :: reprItems ms ++ ['\x7d']
  | .cycle mapping => if mapping then "\x7b...\x7d".toList else "[...]".toList
def reprItems : List Value → Text
  | [] => []
  | [x] => repr x
  | x :: y :: r => repr x ++ ", ".toList ++ reprItems (y :: r)
def reprEntries : List (Value × Value) → Text
  | [] => []
  | [(k, v)] => repr k ++ ": ".toList ++ repr v
  | (k, v) :: e :: r => repr k ++ ": ".toList ++ repr v ++ ", ".toList ++ reprEntries (e :: r)
end

/-- A value that stands for itself outside any notation. -/
def plain : Value → Text
  | .text t => t
  | .date d => d.text
  | .moment m => m.text
  | v => repr v

mutual
/-- Whether a value holds a number of more figures than are written. -/
def holdsLong : Value → Bool
  | .int n => Decimal.isLong n
  | .list xs => anyHoldsLong xs
  | .set ms => anyHoldsLong ms
  | .map es => entriesHoldLong es
  | _ => false
def anyHoldsLong : List Value → Bool
  | [] => false
  | x :: xs => x.holdsLong || anyHoldsLong xs
def entriesHoldLong : List (Value × Value) → Bool
  | [] => false
  | (k, v) :: es => k.holdsLong || v.holdsLong || entriesHoldLong es
end

mutual
/-- How many levels of collections lie in each other. -/
def depth : Value → Nat
  | .list xs => depthOfItems xs + 1
  | .map es => depthOfEntries es + 1
  | _ => 0
def depthOfItems : List Value → Nat
  | [] => 0
  | x :: xs => max x.depth (depthOfItems xs)
def depthOfEntries : List (Value × Value) → Nat
  | [] => 0
  | (_, v) :: es => max v.depth (depthOfEntries es)
end

/-- The plain form of a value, if all numbers in it are written. -/
def plain? (v : Value) : Except Fault Text := if v.holdsLong then .error .longNumber else .ok v.plain

/-- The room that is left one level down. -/
def descend : Nat → Except Fault Nat
  | 0 => .error .descent
  | room + 1 => .ok room

/-- Separators and indentation of JSON text. -/
structure JsonLayout where
  itemSeparator : Text
  keySeparator : Text
  indent : Option Nat

/-- A blank after every separator. -/
def JsonLayout.spaced : JsonLayout := ⟨", ".toList, ": ".toList, none⟩
/-- No blanks at all. -/
def JsonLayout.compact : JsonLayout := ⟨[','], [':'], none⟩
/-- One entry a line, indented by two more at each level. -/
def JsonLayout.indented : JsonLayout := ⟨[','], ": ".toList, some 2⟩

/-- The line break before an entry at a depth. -/
def JsonLayout.lineBreak (l : JsonLayout) (depth : Nat) : Text :=
  match l.indent with
  | none => []
  | some n => '\n' :: List.replicate (n * depth) ' '

/-- A key as text: texts, numbers, truth values and null have one. -/
def jsonKey : Value → Except Fault Text
  | .text t => .ok t
  | .int n => Decimal.write n
  | .float x => .ok (jsonNumber x)
  | .bool b => .ok (if b then "true".toList else "false".toList)
  | .null => .ok "null".toList
  | _ => .error .keyKind

mutual
/-- JSON text of a value. What JSON has no form for is written as a text of its plain form. -/
def json (l : JsonLayout) (room depth : Nat) : Value → Except Fault Text
  | .null => .ok "null".toList
  | .bool b => .ok (if b then "true".toList else "false".toList)
  | .int n => Decimal.write n
  | .float x => .ok (jsonNumber x)
  | .text t => .ok (jsonText t)
  | .list [] => do
    let _ ← descend room
    .ok "[]".toList
  | .list (x :: xs) => do
    let room ← descend room
    let items ← jsonItems l room (depth + 1) (x :: xs)
    .ok ('[' :: l.lineBreak (depth + 1) ++ items ++ l.lineBreak depth ++ [']'])
  | .map [] => do
    let _ ← descend room
    .ok ['\x7b', '\x7d']
  | .map (e :: es) => do
    let room ← descend room
    let items ← jsonEntries l room (depth + 1) (e :: es)
    .ok ('\x7b' :: l.lineBreak (depth + 1) ++ items ++ l.lineBreak depth ++ ['\x7d'])
  | .date d => .ok (jsonText d.text)
  | .moment m => .ok (jsonText m.text)
  | .bytes bs => .ok (jsonText (Text.quotedBytes bs))
  | .set ms => (plain? (.set ms)).map jsonText
  | .cycle _ => .error .circular
def jsonItems (l : JsonLayout) (room depth : Nat) : List Value → Except Fault Text
  | [] => .ok []
  | [x] => json l room depth x
  | x :: y :: r => do
    let first ← json l room depth x
    let rest ← jsonItems l room depth (y :: r)
    .ok (first ++ l.itemSeparator ++ l.lineBreak depth ++ rest)
def jsonEntries (l : JsonLayout) (room depth : Nat) : List (Value × Value) → Except Fault Text
  | [] => .ok []
  | [(k, v)] => do
    let key ← jsonKey k
    let value ← json l room depth v
    .ok (jsonText key ++ l.keySeparator ++ value)
  | (k, v) :: e :: r => do
    let key ← jsonKey k
    let value ← json l room depth v
    let rest ← jsonEntries l room depth (e :: r)
    .ok (jsonText key ++ l.keySeparator ++ value ++ l.itemSeparator ++ l.lineBreak depth ++ rest)
end

mutual
/-- The text that stands for a value in a document: nothing for null, words for truth values, items
joined by commas, mappings as JSON. `room` is how many levels of collections may lie in each other. -/
def stringify (room : Nat) : Value → Except Fault Text
  | .null => .ok []
  | .bool b => .ok (if b then "true".toList else "false".toList)
  | .list xs => do
    let room ← descend room
    stringifyItems room xs
  | .map es => json .spaced room 0 (.map es)
  | .cycle mapping => .error (if mapping then .circular else .descent)
  | v => v.plain?
def stringifyItems (room : Nat) : List Value → Except Fault Text
  | [] => .ok []
  | [x] => stringify room x
  | x :: y :: r => do
    let first ← stringify room x
    let rest ← stringifyItems room (y :: r)
    .ok (first ++ ',' :: rest)
end

end Longform.Value
