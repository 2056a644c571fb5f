import Longform.Html.Node
import Longform.Html.Tag

/-! Trees built from tags and texts in order of reading. An end tag closes the innermost element of
its name with all that is open inside; one that closes nothing is passed over. -/
namespace Longform.Html

/-- An open element; its children so far, the last first. -/
structure Frame where
  name : Text
  attrs : Dictionary Text
  children : List Node

structure Builder where
  /-- The open elements, innermost first. -/
  opened : List Frame
  /-- The finished nodes outside all elements, the last first. -/
  roots : List Node
  /-- The text that is being read. -/
  pending : Option Text
  /-- Void elements that were closed by themselves. An end tag of such a name only takes it off. -/
  closed : List Text

namespace Builder

def empty : Builder := ⟨[], [], none, []⟩

/-- Elements whose white space counts. -/
def keepsBlanks (name : Text) : Bool := name = "pre".toList || name = "textarea".toList

/-- Elements whose text is not shown with the rest. -/
def isSide (name : Text) : Bool :=
  Text.isOneOf name (["rt", "rp", "style", "script", "template"].map String.toList)

def isPlainBlank (c : Char) : Bool := c = ' ' || c = '\n' || c = '\t' || c = '\x0c' || c = '\r'

/-- Text of blanks only is one line break or one space. -/
def squeeze (t : Text) : Text :=
  if t.all isPlainBlank then (if '\n' ∈ t then ['\n'] else [' ']) else t

def addNode (n : Node) (b : Builder) : Builder :=
  match b.opened with
  | [] => { b with roots := n :: b.roots }
  | f :: fs => { b with opened := { f with children := n :: f.children } :: fs }

def write (t : Text) (b : Builder) : Builder := { b with pending := some (b.pending.getD [] ++ t) }

/-- Ends the text that is being read. -/
def flush (kind : TextKind) (b : Builder) : Builder :=
  match b.pending with
  | none => b
  | some t =>
    let t := if b.opened.any fun f => keepsBlanks f.name then t else squeeze t
    let kind := if kind = .shown && b.opened.any fun f => isSide f.name then .side else kind
    { b with pending := none }.addNode (.text kind t)

/-- A text of a kind of its own. -/
def mark (kind : TextKind) (t : Text) (b : Builder) : Builder :=
  ((b.flush .shown).write t).flush kind

/-- Closes the innermost element. -/
def pop (b : Builder) : Builder :=
  match b.opened with
  | [] => b
  | f :: fs => { b with opened := fs }.addNode (.element f.name f.attrs f.children.reverse)

def popTo (name : Text) : Nat → Builder → Builder
  | 0, b => b
  | fuel + 1, b => match b.opened with
    | [] => b
    | f :: _ => if f.name = name then b.pop else popTo name fuel b.pop

def closeAlways (name : Text) (b : Builder) : Builder :=
  let b := b.flush .shown
  if b.opened.any fun f => f.name = name then popTo name b.opened.length b else b

/-- An end tag. -/
def close (name : Text) (b : Builder) : Builder :=
  if Text.isOneOf name b.closed then { b with closed := b.closed.erase name } else b.closeAlways name

/-- Attributes whose value is a list of words, by element; a star stands for all. -/
def listAttributes : List (String × List String) := [
  ("*", ["class", "accesskey", "dropzone"]), ("a", ["rel", "rev"]), ("link", ["rel", "rev"]),
  ("td", ["headers"]), ("th", ["headers"]), ("form", ["accept-charset"]), ("object", ["archive"]),
  ("area", ["rel"]), ("icon", ["sizes"]), ("iframe", ["sandbox"]), ("output", ["for"])]

def isListAttribute (element name : Text) : Bool :=
  listAttributes.any fun (e, ns) => (e = "*" || e.toList = element) && ns.any (·.toList = name)

/-- The words of a text with single spaces between. -/
def wordList : Bool → Text → Text
  | _, [] => []
  | gap, c :: r =>
    if Text.isBlank c then wordList true r
    else if gap then ' ' :: c :: wordList false r
    else c :: wordList false r

def words (t : Text) : Text := wordList false (t.dropWhile Text.isBlank)

/-- A character set named in a text of type and parameters. -/
def withCharset : Bool → Text → Text
  | _, [] => []
  | atStart, c :: r =>
    match if atStart then Text.after? "charset=".toList (c :: r) else none with
    | some rest => "charset=utf-8".toList ++ rest.dropWhile (· ≠ ';')
    | none => c :: withCharset (c = ';' || Text.isBlank c) r

/-- A document is written in one character set, whatever it says itself. -/
def ownCharset (attrs : Dictionary Text) : Dictionary Text :=
  if attrs.hasKey "charset".toList then attrs.set "charset".toList "utf-8".toList
  else match attrs.find? "content".toList, attrs.find? "http-equiv".toList with
    | some content, some kind =>
      if Text.lower kind = "content-type".toList then
        attrs.set "content".toList (withCharset true content)
      else attrs
    | _, _ => attrs

/-- The attributes of an element as they are kept. -/
def kept (name : Text) (attrs : Dictionary Text) : Dictionary Text :=
  let attrs := attrs.map fun (k, v) => (k, if isListAttribute name k then words v else v)
  if name = "meta".toList then ownCharset attrs else attrs

def push (name : Text) (attrs : Dictionary Text) (b : Builder) : Builder :=
  let b := b.flush .shown
  { b with opened := ⟨name, kept name attrs, []⟩ :: b.opened }

/-- A start tag. Void elements are closed at once. -/
def openTag (name : Text) (attrs : Dictionary Text) (b : Builder) : Builder :=
  let b := b.push name attrs
  if Text.isOneOf name voidNames then
    let b := b.closeAlways name
    { b with closed := b.closed ++ [name] }
  else b

/-- A start tag that closes itself. -/
def openAndClose (name : Text) (attrs : Dictionary Text) (b : Builder) : Builder :=
  (b.push name attrs).closeAlways name

/-- The nodes, with all that is open closed. -/
def finish (b : Builder) : List Node :=
  let b := b.flush .shown
  (b.opened.foldl (fun b _ => b.pop) b).roots.reverse

end Builder
end Longform.Html
