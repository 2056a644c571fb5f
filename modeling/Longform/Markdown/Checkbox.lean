import Longform.Markdown.Token

/-! Task lists. A list item whose first paragraph begins with a box in brackets shows a checkbox
instead, and the item and its list are marked with a class. -/
namespace Longform.Checkbox

/-- Whether a text begins with a box, empty or ticked, and white space behind it. -/
def startsWithBox : Text → Bool
  | '[' :: c :: ']' :: d :: _ => (c = ' ' || c = 'x' || c = 'X') && Text.isBlank d
  | _ => false

/-- The checkbox of a text. Only a box with a plain space behind it is drawn. -/
def markup : Text → Text
  | '[' :: ' ' :: ']' :: ' ' :: _ =>
    "<input class=\"task-list-item-checkbox\"  type=\"checkbox\">".toList
  | '[' :: _ :: ']' :: ' ' :: _ =>
    "<input class=\"task-list-item-checkbox\" checked=\"checked\"  type=\"checkbox\">".toList
  | _ => []

/-- Whether the token at position `i` is the text of a list item that begins with a box. -/
def isTask (ts : Array Token) (i : Nat) : Bool :=
  match ts[i]?, ts[i - 1]?, ts[i - 2]? with
  | some t, some opening, some item => t.kind = "inline" && opening.kind = "paragraph_open" &&
      item.kind = "list_item_open" && startsWithBox t.content
  | _, _, _ => false

/-- The children with the box cut off the first and the checkbox in front. -/
def box (content : Text) : List Token → List Token
  | [] => []
  | t :: r => { Token.make "html_inline" "" 0 with content := markup content } ::
      { t with content := t.content.drop 3 } :: r

def tick (t : Token) : Token :=
  { t with children := t.children.map (box t.content), content := t.content.drop 3 }

/-- The last position before `i` of a token at a level, or the last of all when there is none. -/
def enclosing (ts : Array Token) (level : Int) : Nat → Nat
  | 0 => ts.size - 1
  | i + 1 => if (ts.getD i default).level = level then i else enclosing ts level i

def markTask (ts : Array Token) (i : Nat) : Array Token :=
  if !isTask ts i then ts
  else
    let item := i - 2
    let list := enclosing ts ((ts.getD item default).level - 1) item
    ((ts.modify i tick).modify item (·.withAttr "class" "task-list-item enabled".toList)).modify list
      (·.withAttr "class" "contains-task-list".toList)

/-- The stream with its task lists marked. The last token is never looked at. -/
def markAll (ts : List Token) : List Token :=
  ((List.range' 2 (ts.length - 3)).foldl markTask ts.toArray).toList

end Longform.Checkbox
