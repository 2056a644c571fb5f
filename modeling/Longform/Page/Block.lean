import Longform.Decimal.Read
import Longform.Html.Parse

/-! Blocks of a rendered chapter that no page divides: its top-level nodes, lists cut into their
items. Items of one list that stand side by side are put back into a list. -/
namespace Longform.Page

/-- Where a list item comes from: the element of its list, the position of the list in the chapter,
and its own position in the list. -/
structure Membership where
  tag : Text
  attrs : Dictionary Text
  list : Int
  ordinal : Int
deriving DecidableEq, Repr

structure Block where
  html : Text
  membership : Option Membership
deriving DecidableEq, Repr

def isList (name : Text) : Bool := name = "ul".toList || name = "ol".toList

/-- The items of a list, each with its membership. -/
def itemBlocks (tag : Text) (attrs : Dictionary Text) (list : Nat) (children : List Html.Node) :
    List Block :=
  (children.filter (Html.Node.isElement "li".toList)).zipIdx.map fun (item, ordinal) =>
    ⟨item.markup false, some ⟨tag, attrs, list, ordinal⟩⟩

/-- The blocks of the node at a position. A text stands for itself; a blank one is left out. -/
def nodeBlocks (n : Html.Node) (position : Nat) : List Block :=
  match n with
  | .text _ t => if Text.allBlank t then [] else [⟨t, none⟩]
  | .element name attrs children =>
    if isList name then itemBlocks name attrs position children
    else [⟨n.markup false, none⟩]

/-- Cuts a rendered text into its blocks. -/
def cut (html : Text) : Except Fault (List Block) :=
  (Html.parse html).map fun ns => ns.zipIdx.flatMap fun (n, i) => nodeBlocks n i

/-- The number that a list starts with: one, unless its attribute says otherwise. -/
def start (attrs : Dictionary Text) : Except Fault Int :=
  match attrs.find? "start".toList with
  | none | some [] => .ok 1
  | some t => Decimal.integer? 10 t

/-- The start of a list that begins with one of its later items, by the position of that. -/
def startAt (attrs : Dictionary Text) (ordinal : Int) : Except Fault Text := do
  let n ← start attrs
  Decimal.write (n + ordinal)

/-- The attributes of a list that begins with one of its later items: a numbered list goes on
counting. -/
def attributes (m : Membership) : Except Fault (Dictionary Text) :=
  let attrs := Dictionary.ofEntries m.attrs
  if m.tag = "ol".toList && m.ordinal ≠ 0 then
    (startAt attrs m.ordinal).map fun t => attrs.set "start".toList t
  else .ok attrs

def opening (m : Membership) : Except Fault Text :=
  (attributes m).map fun attrs =>
    '<' :: m.tag ++ (attrs.flatMap fun (k, v) =>
      ' ' :: k ++ '=' :: '"' :: Text.escapeAttribute v ++ ['"']) ++ ['>']

/-- A list of some of its items, the first with membership `m`. -/
def listMarkup (m : Membership) (items : List Text) : Except Fault Text :=
  (opening m).map fun tag =>
    tag ++ '\n' :: Text.joinLines items ++ "\n</".toList ++ m.tag ++ ['>']

/-- The items at the beginning that belong to a list, and the other blocks. -/
def spanList (list : Int) : List Block → List Text × List Block
  | [] => ([], [])
  | b :: bs =>
    if b.membership.any fun m => m.list = list then
      let (items, rest) := spanList list bs
      (b.html :: items, rest)
    else ([], b :: bs)

theorem length_spanList_le (list : Int) (bs : List Block) :
    (spanList list bs).2.length ≤ bs.length := by
  induction bs with
  | nil => simp [spanList]
  | cons b bs ih =>
    unfold spanList
    split
    · exact Nat.le_succ_of_le ih
    · simp

/-- The fragments of a page: its blocks, neighbouring items of one list within one list. -/
def assemble : List Block → Except Fault (List Text)
  | [] => .ok []
  | b :: bs => match b.membership with
    | none => (assemble bs).map (b.html :: ·)
    | some m => do
      let list ← listMarkup m (b.html :: (spanList m.list bs).1)
      let rest ← assemble (spanList m.list bs).2
      .ok (list :: rest)
termination_by bs => bs.length
decreasing_by
  · simp
  · have := length_spanList_le m.list bs
    simp only [List.length_cons]
    omega

end Longform.Page
