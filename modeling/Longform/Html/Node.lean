import Longform.Dictionary
import Longform.Text.Escape

/-! Markup as a tree: elements with their attributes and children, and texts of several kinds. -/
namespace Longform.Html

/-- What a text is part of. -/
inductive TextKind
  /-- Text that is shown. -/
  | shown
  /-- Text of a script, style, template or ruby annotation. -/
  | side
  | comment
  | rawData
  | instruction
  | declaration
  | doctype
deriving DecidableEq, Repr

inductive Node
  | text (kind : TextKind) (content : Text)
  | element (name : Text) (attrs : Dictionary Text) (children : List Node)
deriving Inhabited

/-- Elements that never have content. -/
def voidNames : List Text := ["area", "base", "br", "col", "embed", "hr", "img", "input", "keygen",
  "link", "menuitem", "meta", "param", "source", "track", "wbr", "basefont", "bgsound", "command",
  "frame", "image", "isindex", "nextid", "spacer"].map String.toList

/-- Elements whose text is written without references. -/
def isLiteralName (name : Text) : Bool := name = "script".toList || name = "style".toList

/-! Writing. -/

/-- A value in quotes: double ones, unless the value holds double and no single ones. -/
def quotedValue (t : Text) : Text :=
  if '"' ∉ t then '"' :: t ++ ['"']
  else if '\'' ∉ t then '\'' :: t ++ ['\'']
  else '"' :: (t.flatMap fun c => if c = '"' then "&quot;".toList else [c]) ++ ['"']

/-- Whether a text comes before another, by code points. -/
def precedes : Text → Text → Bool
  | _, [] => false
  | [], _ :: _ => true
  | a :: s, b :: t => a.toNat < b.toNat || (a = b && precedes s t)

def insertAttr (a : Text × Text) : Dictionary Text → Dictionary Text
  | [] => [a]
  | b :: r => if precedes a.1 b.1 then a :: b :: r else b :: insertAttr a r

/-- Attributes in the order of their names. -/
def sortedAttrs (attrs : Dictionary Text) : Dictionary Text :=
  attrs.foldl (fun sorted a => insertAttr a sorted) []

def attributesMarkup (attrs : Dictionary Text) : Text :=
  (sortedAttrs attrs).flatMap fun (k, v) => ' ' :: k ++ '=' :: quotedValue (Text.escapeContent v)

/-- A text with the marks around it that tell its kind. -/
def textMarkup (literal : Bool) (kind : TextKind) (t : Text) : Text :=
  match kind with
  | .shown | .side => if literal then t else Text.escapeContent t
  | .comment => "<!--".toList ++ t ++ "-->".toList
  | .rawData => "<![CDATA[".toList ++ t ++ "]]>".toList
  | .instruction => "<?".toList ++ t ++ ['>']
  | .declaration => "<?".toList ++ t ++ "?>".toList
  | .doctype => "<!DOCTYPE ".toList ++ t ++ ">\n".toList

namespace Node

mutual
/-- The markup of a node; `literal` tells that its text needs no references. -/
def markup (literal : Bool) : Node → Text
  | .text kind t => textMarkup literal kind t
  | .element name attrs children =>
    let opening := '<' :: name ++ attributesMarkup attrs
    if children.isEmpty && Text.isOneOf name voidNames then opening ++ ['/', '>']
    else opening ++ '>' :: markupAll (isLiteralName name) children ++ '<' :: '/' :: name ++ ['>']
def markupAll (literal : Bool) : List Node → Text
  | [] => []
  | n :: ns => markup literal n ++ markupAll literal ns
end

mutual
/-- The text that is shown. -/
def shownText : Node → Text
  | .text kind t => if kind = .shown ∨ kind = .rawData then t else []
  | .element _ _ children => shownTexts children
def shownTexts : List Node → Text
  | [] => []
  | n :: ns => shownText n ++ shownTexts ns
end

mutual
/-- How many elements have a name that satisfies `p`. -/
def count (p : Text → Bool) : Node → Nat
  | .text _ _ => 0
  | .element name _ children => (if p name then 1 else 0) + countAll p children
def countAll (p : Text → Bool) : List Node → Nat
  | [] => 0
  | n :: ns => count p n + countAll p ns
end

def isElement (name : Text) : Node → Bool
  | .text _ _ => false
  | .element n _ _ => n = name

end Node

/-- The markup of a sequence of nodes. -/
def markup (ns : List Node) : Text := Node.markupAll false ns

/-- The text that is shown of a sequence of nodes. -/
def shownText (ns : List Node) : Text := Node.shownTexts ns

end Longform.Html
