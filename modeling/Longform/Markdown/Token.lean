import Longform.Value.Basic

/-! Tokens of a parsed document. A stream of block tokens opens and closes elements; the text of a
paragraph or heading is one `inline` token whose children are the tokens of its content. -/
namespace Longform

structure Token where
  kind : String
  tag : String
  /-- One for an opening token, minus one for a closing token, zero otherwise. -/
  nesting : Int
  attrs : Dictionary Value
  /-- First line and the line after the last. -/
  map : Option (Int × Int)
  level : Int
  children : Option (List Token)
  content : Text
  markup : Text
  info : Text
  marks : Dictionary Value
  block : Bool
  hidden : Bool
deriving Inhabited

namespace Token

/-- A token of a kind with nothing set. -/
def make (kind tag : String) (nesting : Int) : Token :=
  ⟨kind, tag, nesting, [], none, 0, none, [], [], [], [], false, false⟩

/-- A piece of text. -/
def ofText (t : Text) : Token := { make "text" "" 0 with content := t }

def setAttr (name : String) (v : Value) (t : Token) : Token :=
  { t with attrs := Dictionary.set name.toList v t.attrs }

/-- An attribute with a textual value. -/
def withAttr (name : String) (v : Text) (t : Token) : Token := t.setAttr name (.text v)

/-- A token of a block that shows inline content. -/
def isVisibleInline (t : Token) : Bool := t.kind = "inline" && t.children.isSome && !t.hidden

def isBreak (t : Token) : Bool := t.kind = "softbreak" || t.kind = "hardbreak"

/-- The open tags after a token, innermost first; none when it closes what is not open. -/
def stepStack (stack : List String) (t : Token) : Option (List String) :=
  if t.nesting = 1 then some (t.tag :: stack)
  else if t.nesting = -1 then
    match stack with
    | [] => none
    | s :: r => if s = t.tag then some r else none
  else some stack

mutual
/-- Whether openings and closings match from a stack of open tags on, and in the children of every
token. -/
def balanced : List String → List Token → Bool
  | stack, [] => stack.isEmpty
  | stack, t :: r =>
    match stepStack stack t with
    | none => false
    | some stack' => childrenBalanced t && balanced stack' r
def childrenBalanced : Token → Bool
  | ⟨_, _, _, _, _, _, none, _, _, _, _, _, _⟩ => true
  | ⟨_, _, _, _, _, _, some cs, _, _, _, _, _, _⟩ => balanced [] cs
end

/-- Whether every opening has exactly one matching closing, here and in all children. -/
def wellFormed (ts : List Token) : Bool := balanced [] ts

/-- The tokens that show inline content. -/
def visibleInline (ts : List Token) : List Token := ts.filter isVisibleInline

end Token
end Longform
