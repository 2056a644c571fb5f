import Longform.Figure
import Longform.Markdown.Token
import Longform.Text.Percent

/-! Links in double brackets. `[[target]]` and `[[target|detail]]` link to a sibling page, or to a
search for it; with an exclamation mark in front, an image-like target is shown as an image. -/
namespace Longform

structure Wikilink where
  bang : Bool
  target : Text
  /-- Where a link leads if not to its target; of an image, the alternative text. -/
  detail : Option Text
deriving DecidableEq, Repr

namespace Wikilink

/-- Reads what follows the opening brackets: a target without bar or bracket, optionally a bar and
a detail without bracket, and the closing brackets. -/
def readInside? (bang : Bool) (t : Text) : Option (Wikilink × Text) :=
  let inTarget (c : Char) : Bool := c ≠ '|' && c ≠ ']'
  let target := t.takeWhile inTarget
  if target.isEmpty then none
  else match t.dropWhile inTarget with
    | ']' :: ']' :: r => some (⟨bang, target, none⟩, r)
    | '|' :: s =>
      let detail := s.takeWhile (· ≠ ']')
      if detail.isEmpty then none
      else match s.dropWhile (· ≠ ']') with
        | ']' :: ']' :: r => some (⟨bang, target, some detail⟩, r)
        | _ => none
    | _ => none

/-- The wikilink that a text begins with, and the text after it. -/
def read? : Text → Option (Wikilink × Text)
  | '!' :: '[' :: '[' :: r => readInside? true r
  | '[' :: '[' :: r => readInside? false r
  | _ => none

/-- The address of a page: a sibling file, or a search when a prefix for searches is given. -/
def href (searchPrefix : Option Text) (destination : Text) : Except Fault Text :=
  match searchPrefix with
  | some p =>
    if p.isEmpty then .ok (destination ++ ".html".toList)
    else (Text.percentEncode Text.isComponentChar destination).map fun d => "#&".toList ++ p ++ '=' :: d
  | none => .ok (destination ++ ".html".toList)

/-- Whether the link is shown as an image. -/
def isImage (w : Wikilink) : Bool := w.bang && Figure.isImageTarget w.target

/-- The tokens of a wikilink: one image, or a link around the target. -/
def tokens (searchPrefix : Option Text) (w : Wikilink) : Except Fault (List Token) :=
  if w.isImage then
    let alt := w.detail.getD []
    .ok [{ ((Token.make "image" "img" 0).withAttr "src" w.target).withAttr "alt" alt with
      content := alt
      children := some (w.detail.toList.map Token.ofText) }]
  else
    (href searchPrefix (w.detail.getD w.target)).map fun address =>
      [{ (Token.make "link_open" "a" 1).withAttr "href" address with markup := "wikilink".toList },
        Token.ofText w.target,
        { Token.make "link_close" "a" (-1) with markup := "wikilink".toList }]

/-- A text token for a piece that is not empty. -/
def plain (t : Text) : List Token := if t.isEmpty then [] else [Token.ofText t]

/-- Reads a text from left to right with the plain text in front of it. -/
def expandFrom (searchPrefix : Option Text) : Nat → Text → Text → Except Fault (List Token)
  | 0, before, t => .ok (plain (before ++ t))
  | _, before, [] => .ok (plain before)
  | fuel + 1, before, c :: r =>
    match read? (c :: r) with
    | some (w, s) => do
      let link ← w.tokens searchPrefix
      let rest ← expandFrom searchPrefix fuel [] s
      .ok (plain before ++ link ++ rest)
    | none => expandFrom searchPrefix fuel (before ++ [c]) r

/-- The text, link and image tokens of a text. -/
def expand (searchPrefix : Option Text) (t : Text) : Except Fault (List Token) :=
  expandFrom searchPrefix t.length [] t

end Wikilink
end Longform
