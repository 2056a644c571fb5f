import Longform.Decimal.Read
import Longform.Text.Case
import Longform.Value.Basic
import Longform.Yaml.Node

/-! The value of a YAML document. Scalars are read by their tags; collections are filled one level
after the other, so that of two mistakes the one nearer to the root counts. -/
namespace Longform.Yaml

/-! Scalars. -/

def refuse {α : Type} (f : Fault) : Except Problem α := .error (.refused f)

def isFlag (t : Text) (ws : List String) : Bool := ws.any fun w => w.toList = t

def boolOf (t : Text) : Except Problem Value :=
  let u := Text.lower t
  if isFlag u ["yes", "true", "on"] then .ok (.bool true)
  else if isFlag u ["no", "false", "off"] then .ok (.bool false)
  else refuse .unknownWord

def integer (base : Nat) (t : Text) : Except Problem Int :=
  match Decimal.integer? base t with
  | .ok n => .ok n
  | .error e => refuse e

def float (t : Text) : Except Problem Float :=
  match Decimal.number? t with
  | some x => .ok x
  | none => refuse (.float t)

/-- Whole numbers between colons as digits in base sixty. -/
def sixtiesFrom : Int → List Text → Except Problem Int
  | n, [] => .ok n
  | n, t :: ts => do sixtiesFrom (60 * n + (← integer 10 t)) ts

/-- A sign in front of a number, and the rest. A text without characters has no sign to look at. -/
def signed (t : Text) : Except Problem (Bool × Text) :=
  match t with
  | [] => refuse .position
  | '-' :: r => .ok (true, r)
  | '+' :: r => .ok (false, r)
  | r => .ok (false, r)

def unsignedInt (t : Text) : Except Problem Int :=
  match t with
  | [] => refuse .position
  | ['0'] => .ok 0
  | '0' :: 'b' :: r => integer 2 r
  | '0' :: 'x' :: r => integer 16 r
  | '0' :: r => integer 8 ('0' :: r)
  | t => if ':' ∈ t then sixtiesFrom 0 (Text.splitAt ':' t) else integer 10 t

def intOf (t : Text) : Except Problem Value := do
  let (negative, r) ← signed (t.filter (· ≠ '_'))
  let n ← unsignedInt r
  .ok (.int (if negative then -n else n))

/-- Numbers between colons as digits in base sixty, the last first. A unit that is too large for a
number with a fraction is refused. -/
def sixtieths (total : Float) (unit : Nat) : List Float → Except Problem Float
  | [] => .ok total
  | x :: xs =>
    if 2 ^ 1024 ≤ unit then refuse .infinite
    else sixtieths (total + x * unit.toFloat) (60 * unit) xs

def floatOf (t : Text) : Except Problem Value := do
  let (negative, r) ← signed (Text.lower (t.filter (· ≠ '_')))
  let x ← if r = ".inf".toList then .ok (1.0 / 0.0)
    else if r = ".nan".toList then .ok (0.0 / 0.0)
    else if ':' ∈ r then do
      let parts ← (Text.splitAt ':' r).mapM float
      sixtieths 0.0 1 parts.reverse
    else float r
  .ok (.float (if negative then -x else x))

def isBase64 (c : Char) : Bool := c.isAlphanum || c = '+' || c = '/'

def base64Value (c : Char) : Nat :=
  if c.isUpper then c.toNat - 65 else if c.isLower then c.toNat - 71
  else if c.isDigit then c.toNat + 4 else if c = '+' then 62 else 63

/-- Groups of four characters as three bytes each; other characters are passed over. The padding
ends the text as soon as it completes a group. -/
def decode64 : List Nat → Nat → Text → Except Problem (List UInt8)
  | group, _, [] => if group.isEmpty then .ok [] else .error .malformed
  | group, pads, c :: r =>
    if c = '=' then
      if 2 ≤ group.length && 4 ≤ group.length + pads + 1 then
        .ok ((bytesOf group).take (group.length - 1))
      else decode64 group (if 2 ≤ group.length then pads + 1 else pads) r
    else if !isBase64 c then decode64 group pads r
    else
      let group := group ++ [base64Value c]
      if group.length = 4 then (decode64 [] 0 r).map (bytesOf group ++ ·) else decode64 group 0 r
where
  /-- The three bytes of a group, which is completed with zeros. -/
  bytesOf (group : List Nat) : List UInt8 :=
    let n := (group ++ List.replicate (4 - group.length) 0).foldl (fun n d => 64 * n + d) 0
    [UInt8.ofNat (n / 65536), UInt8.ofNat (n / 256 % 256), UInt8.ofNat (n % 256)]

def bytesOf (t : Text) : Except Problem Value :=
  if t.all (·.toNat < 128) then (decode64 [] 0 t).map .bytes else .error .malformed

/-! Moments. -/

/-- Figures and what follows them, at least one and at most `most`. -/
def figures? (most : Nat) (t : Text) : Option (Nat × Text) :=
  let figures := (t.take most).takeWhile Char.isDigit
  if figures.isEmpty then none
  else some (figures.foldl (fun n c => 10 * n + (c.toNat - 48)) 0, t.drop figures.length)

/-- Exactly `n` figures. -/
def exactly? (n : Nat) (t : Text) : Option (Nat × Text) :=
  if ((t.take n).takeWhile Char.isDigit).length = n then figures? n t else none

structure Clock where
  hour : Nat
  minute : Nat
  second : Nat
  microsecond : Nat
  offset : Option Int

/-- The fraction of a second, of which six figures count. -/
def fraction (t : Text) : Nat × Text :=
  match t with
  | '.' :: r =>
    let figures := r.takeWhile Char.isDigit
    (((figures ++ List.replicate 6 '0').take 6).foldl (fun n c => 10 * n + (c.toNat - 48)) 0,
      r.drop figures.length)
  | _ => (0, t)

/-- The distance from universal time at the end of a moment, in minutes. -/
def offset? (t : Text) : Option (Option Int) :=
  match t.dropWhile isGap with
  | ['Z'] | ['Z', '\n'] => some (some 0)
  | s :: r =>
    if s = '+' || s = '-' then do
      let (hours, r) ← figures? 2 r
      let (minutes, r) ← match r with
        | ':' :: r => exactly? 2 r
        | _ => some (0, r)
      let n : Int := hours * 60 + minutes
      if r = [] ∨ r = ['\n'] then some (some (if s = '-' then -n else n)) else none
    else none
  | [] => none

def clock? (t : Text) : Option Clock := do
  let (hour, t) ← figures? 2 t
  let (minute, t) ← exactly? 2 (← Text.after? [':'] t)
  let (second, t) ← exactly? 2 (← Text.after? [':'] t)
  let (microsecond, t) := fraction t
  if t = [] ∨ t = ['\n'] then some ⟨hour, minute, second, microsecond, none⟩
  else do
    let o ← offset? t
    some ⟨hour, minute, second, microsecond, o⟩

/-- A date and, behind a letter or gap, a time. -/
def timestamp? (t : Text) : Option ((Nat × Nat × Nat) × Option Clock) := do
  let (year, t) ← exactly? 4 t
  let (month, t) ← figures? 2 (← Text.after? ['-'] t)
  let (day, t) ← figures? 2 (← Text.after? ['-'] t)
  match t with
  | [] | ['\n'] => some ((year, month, day), none)
  | c :: r =>
    if c = 'T' || c = 't' then (clock? r).map fun k => ((year, month, day), some k)
    else if isGap c then (clock? (r.dropWhile isGap)).map fun k => ((year, month, day), some k)
    else none

def calendar {α : Type} (e : Except Calendar.Fault α) : Except Problem α :=
  match e with
  | .ok x => .ok x
  | .error f => refuse (.calendar f)

def momentOf (t : Text) : Except Problem Value :=
  match timestamp? t with
  | none => refuse .missingForm
  | some ((year, month, day), none) => do .ok (.date (← calendar (Calendar.date? year month day)))
  | some ((year, month, day), some k) => do
    let offset ← match k.offset with
      | none => .ok none
      | some o => some <$> calendar (Calendar.offset? o)
    let date ← calendar (Calendar.date? year month day)
    .ok (.moment (← calendar (Calendar.moment? date k.hour k.minute k.second k.microsecond offset)))

/-! Collections. -/

/-- What a node has become so far. Collections hold the numbers of their nodes. -/
inductive Built
  | leaf (v : Value)
  /-- A collection that is still to be filled. -/
  | hollow
  | items (is : List Nat)
  | rows (ps : List (Nat × Nat))
  | entries (es : List (Value × Nat))
  | members (ms : List Value)

structure Builder where
  nodes : Array Node
  built : List (Nat × Built)
  /-- The collections to be filled next, in order. -/
  queue : List Nat
  /-- How many levels of collections may lie in each other. -/
  room : Nat

abbrev Build := StateT Builder (Except Problem)

namespace Build

def nodeAt (i : Nat) : Build Node := return (← get).nodes.getD i default

def setBuilt (i : Nat) (b : Built) : Build Unit :=
  modify fun s => { s with built := (i, b) :: s.built.filter fun (j, _) => j ≠ i }

def setEntries (i : Nat) (es : List (Nat × Nat)) : Build Unit :=
  modify fun s => { s with nodes := s.nodes.modify i fun n => { n with content := .mapping es } }

/-- The text of a scalar; a mapping has that of its `=` entry. -/
def textOf : Nat → Nat → Build Text
  | 0, _ => throw (.refused .descent)
  | room + 1, i => do
    match (← nodeAt i).content with
    | .scalar t => return t
    | .sequence _ => throw .malformed
    | .mapping es =>
      let nodes := (← get).nodes
      match es.find? fun (k, _) => (nodes.getD k default).tag = Tag.value with
      | some (_, v) => textOf room v
      | none => throw .malformed

def isHollow (tag : Text) : Bool := Text.isOneOf tag [Tag.seq, Tag.map, Tag.set, Tag.omap, Tag.pairs]

/-- Builds a scalar, or puts a collection into the queue. -/
def begin (i : Nat) : Build Built := do
  match (← get).built.lookup i with
  | some b => return b
  | none =>
    let n ← nodeAt i
    let b ← if isHollow n.tag then do
        modify fun s => { s with queue := s.queue ++ [i] }
        pure .hollow
      else do
        let known := [Tag.null, Tag.bool, Tag.int, Tag.float, Tag.binary, Tag.timestamp, Tag.str]
        if !Text.isOneOf n.tag known then throw .malformed
        let t ← textOf ((← get).room + 1) i
        let isMapping := match n.content with
          | .mapping _ => true
          | _ => false
        .leaf <$> if n.tag = Tag.null then pure .null
          else if n.tag = Tag.bool then liftM (boolOf t)
          else if n.tag = Tag.int then liftM (intOf t)
          else if n.tag = Tag.float then liftM (floatOf t)
          else if n.tag = Tag.binary then liftM (bytesOf t)
          else if n.tag = Tag.timestamp then
            if isMapping then throw (.refused .collection) else liftM (momentOf t)
          else pure (.text t)
    setBuilt i b
    return b

/-- Entries that are merged into a mapping from others, and the entries that stay. -/
structure Merged where
  taken : List (Nat × Nat)
  kept : List (Nat × Nat)

mutual
/-- Replaces the merge entries of a mapping by the entries of the mappings they name, which come
first. -/
def flatten : Nat → Nat → Build Unit
  | 0, _ => throw (.refused .descent)
  | fuel + 1, i => do
    match (← nodeAt i).content with
    | .mapping es =>
      let m ← takeMerges fuel i [] [] es
      setEntries i (m.taken ++ m.kept)
    | _ => pure ()

/-- Visits entries from left to right. An entry is gone from its mapping before the mappings it names
are flattened, since one of them may be the mapping itself. -/
def takeMerges (fuel : Nat) (i : Nat) (taken kept : List (Nat × Nat)) :
    List (Nat × Nat) → Build Merged
  | [] => return ⟨taken, kept⟩
  | (k, v) :: rest => do
    let tag := (← nodeAt k).tag
    if tag = Tag.merge then
      setEntries i (kept ++ rest)
      match (← nodeAt v).content with
      | .mapping _ =>
        flattenIn fuel v
        takeMerges fuel i (taken ++ (← entriesOf v)) kept rest
      | .sequence items =>
        let parts ← mergeParts fuel items
        takeMerges fuel i (taken ++ parts.reverse.flatten) kept rest
      | .scalar _ => throw .malformed
    else
      if tag = Tag.value then
        modify fun s => { s with nodes := s.nodes.modify k fun n => { n with tag := Tag.str } }
      takeMerges fuel i taken (kept ++ [(k, v)]) rest

def flattenIn : Nat → Nat → Build Unit
  | 0, _ => throw (.refused .descent)
  | fuel + 1, i => flatten fuel i

def mergeParts (fuel : Nat) : List Nat → Build (List (List (Nat × Nat)))
  | [] => return []
  | i :: is => do
    match (← nodeAt i).content with
    | .mapping _ =>
      flattenIn fuel i
      let es ← entriesOf i
      return es :: (← mergeParts fuel is)
    | _ => throw .malformed

def entriesOf (i : Nat) : Build (List (Nat × Nat)) := do
  match (← nodeAt i).content with
  | .mapping es => return es
  | _ => return []
end

/-- The key that a node is; collections are none. -/
def key (i : Nat) : Build Value := do
  match ← begin i with
  | .leaf v => return v
  | _ => throw .malformed

def itemsOf (is : List Nat) : Build Unit := do
  for i in is do
    let _ ← begin i

/-- Keys with the nodes of their values; the last value of a key counts. -/
def rowsOf : List (Value × Nat) → List (Nat × Nat) → Build (List (Value × Nat))
  | found, [] => return found
  | found, (k, v) :: es => do
    let name ← key k
    let _ ← begin v
    rowsOf (setRow name v found) es
where
  setRow (k : Value) (i : Nat) : List (Value × Nat) → List (Value × Nat)
    | [] => [(k, i)]
    | (k', j) :: r => if Value.sameKey k' k then (k', i) :: r else (k', j) :: setRow k i r

/-- The only entry of each of some mappings. -/
def singles : List Nat → Build (List (Nat × Nat))
  | [] => return []
  | i :: is => do
    match (← nodeAt i).content with
    | .mapping [(k, v)] =>
      let _ ← begin k
      let _ ← begin v
      return (k, v) :: (← singles is)
    | _ => throw .malformed

def mappingRows (i : Nat) : Build (List (Value × Nat)) := do
  flatten (2 * (← get).room + 1) i
  match (← nodeAt i).content with
  | .mapping es => rowsOf [] es
  | _ => throw .malformed

/-- Fills a collection. -/
def fill (i : Nat) : Build Unit := do
  let n ← nodeAt i
  if n.tag = Tag.map then
    setBuilt i (.entries (← mappingRows i))
  else if n.tag = Tag.set then
    setBuilt i (.members ((← mappingRows i).map (·.1)))
  else match n.content with
    | .sequence is =>
      if n.tag = Tag.seq then
        itemsOf is
        setBuilt i (.items is)
      else setBuilt i (.rows (← singles is))
    | _ => throw .malformed

/-- Fills the collections in the queue, and those that come up on the way. -/
def fillAll : Nat → Build Unit
  | 0 => pure ()
  | fuel + 1 => do
    match (← get).queue with
    | [] => pure ()
    | i :: q =>
      modify fun s => { s with queue := q }
      fill i
      fillAll fuel

/-- The value of a node; `path` holds the collections around it. -/
def unfold (built : List (Nat × Built)) : Nat → List Nat → Nat → Value
  | 0, _, _ => .null
  | fuel + 1, path, i =>
    let inner := unfold built fuel (i :: path)
    match built.lookup i with
    | none | some .hollow => .null
    | some (.leaf v) => v
    | some (.items is) => if i ∈ path then .cycle false else .list (is.map inner)
    | some (.rows ps) =>
      if i ∈ path then .cycle false else .list (ps.map fun (k, v) => .list [inner k, inner v])
    | some (.entries es) =>
      if i ∈ path then .cycle true else .map (es.map fun (k, j) => (k, inner j))
    | some (.members ms) => .set ms

/-- The value of a document. -/
def value (root : Nat) : Build Value := do
  let _ ← begin root
  let n := (← get).nodes.size
  fillAll (n + 1)
  return unfold (← get).built (n + 1) [] root

end Build

/-- The value of a YAML text; null when there is nothing in it. -/
def read (room : Nat) (t : Text) : Except Problem Value := do
  let (nodes, root) ← compose room t
  match root with
  | none => .ok .null
  | some i => ((Build.value i).run ⟨nodes, [], [], room⟩).map (·.1)

end Longform.Yaml
