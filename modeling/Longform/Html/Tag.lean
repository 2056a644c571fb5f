import Longform.Dictionary
import Longform.Html.Reference
import Longform.Text.Case

/-! Start tags: where they end, and which attributes they have. -/
namespace Longform.Html

/-- Characters that end the name of an element. -/
def endsName (c : Char) : Bool :=
  c = '\t' || c = '\n' || c = '\r' || c = '\x0c' || c = ' ' || c = '/' || c = '>' || c = '\x00'

/-- Skips blanks, and slashes that no `>` follows. -/
def skipFiller : Text → Text
  | [] => []
  | c :: r =>
    if Text.isBlank c || (c = '/' && r.head? ≠ some '>') then skipFiller r else c :: r

/-- Whether an attribute may begin behind a character. -/
def precedesAttribute (c : Char) : Bool := c = '\'' || c = '"' || c = '/' || Text.isBlank c

def isNameStart (c : Char) : Bool := !(Text.isBlank c || c = '/' || c = '>')
def isNamePart (c : Char) : Bool := !(Text.isBlank c || c = '/' || c = '=' || c = '>')

/-- An attribute as it is written; the value keeps its quotes. -/
structure Written where
  name : Text
  value : Option Text

def isBare (c : Char) : Bool := !(c = '>' || Text.isBlank c)

/-- A value in quotes, with them. -/
def quotedPart? (t : Text) : Option Text :=
  match t with
  | q :: r =>
    if q = '\'' || q = '"' then
      let inside := r.takeWhile (· ≠ q)
      if inside.length < r.length then some (q :: inside ++ [q]) else none
    else none
  | [] => none

/-- Reads the value behind a name: equality signs and a value, blanks around the signs. A quote that
is never closed leaves the value empty, or makes the last sign part of it. -/
def value? (t : Text) : Option (Text × Text) :=
  let u := t.dropWhile Text.isBlank
  let signs := u.takeWhile (· = '=')
  if signs.isEmpty then none
  else
    let behind := u.drop signs.length
    let v := behind.dropWhile Text.isBlank
    match quotedPart? v with
    | some q => some (q, v.drop q.length)
    | none =>
      if v.head? ≠ some '\'' && v.head? ≠ some '"' then
        some (v.takeWhile isBare, v.dropWhile isBare)
      else if v.length < behind.length then
        some ([], behind.drop (behind.length - v.length - 1))
      else if 1 < signs.length then
        some (('=' :: v).takeWhile isBare, v.dropWhile isBare)
      else none

/-- The last of some characters, or else `c`. -/
def lastOr (c : Char) (t : Text) : Char := t.getLastD c

/-- The attribute at the beginning of a text, with what follows it; `before` is the character in
front. -/
def attribute? (before : Char) (t : Text) : Option (Written × Text) :=
  match t with
  | c :: r =>
    if precedesAttribute before && isNameStart c then
      let name := c :: r.takeWhile isNamePart
      let rest := r.dropWhile isNamePart
      match value? rest with
      | some (v, rest) => some (⟨name, some v⟩, skipFiller rest)
      | none => some (⟨name, none⟩, skipFiller rest)
    else none
  | [] => none

/-- The attributes at the beginning of a text, and what follows them. -/
def attributesFrom : Nat → Char → Text → List Written × Text
  | 0, _, t => ([], t)
  | fuel + 1, before, t => match attribute? before t with
    | none => ([], t)
    | some (a, rest) =>
      let (as, rest') := attributesFrom fuel (lastOr before (t.take (t.length - rest.length))) rest
      (a :: as, rest')

/-- Name, attributes and rest of a start tag, of which the angle bracket is read. -/
structure Opening where
  name : Text
  attrs : List Written
  /-- What follows the last attribute. -/
  rest : Text

def opening (t : Text) : Opening :=
  let name := t.takeWhile fun c => !endsName c
  let behind := t.drop name.length
  let rest := skipFiller behind
  let before := lastOr (lastOr '<' name) (behind.take (behind.length - rest.length))
  let (attrs, rest) := attributesFrom (rest.length + 1) before rest
  ⟨name, attrs, rest⟩

/-- How a start tag ends. -/
inductive Ending
  | closed
  | selfClosed
  /-- The text ends within the tag. -/
  | unfinished
  /-- Something that is no part of a tag. -/
  | broken (rest : Text)

/-- How the tag ends whose attributes are read. -/
def Opening.ending (o : Opening) : Ending × Text :=
  match o.rest with
  | '>' :: r => (.closed, r)
  | '/' :: '>' :: r => (.selfClosed, r)
  | [] => (.unfinished, [])
  | c :: r =>
    if c.isAlpha || c = '=' || c = '/' then (.unfinished, []) else (.broken (c :: r), c :: r)

/-- The value of an attribute: without quotes, its references read; empty when there is none. -/
def Written.text (w : Written) : Except Fault Text :=
  match w.value with
  | none => .ok []
  | some v =>
    let isQuoted := 2 ≤ v.length && (v.head? = some '\'' || v.head? = some '"') && v.getLast? = v.head?
    unescape (if isQuoted then v.tail.dropLast else v)

/-- Name and value of an attribute. -/
def Written.entry (w : Written) : Except Fault (Text × Text) := w.text.map (Text.lower w.name, ·)

/-- The attributes by name; the last value of a name counts. -/
def Opening.attributes (o : Opening) : Except Fault (Dictionary Text) :=
  (o.attrs.mapM Written.entry).map Dictionary.ofEntries

end Longform.Html
