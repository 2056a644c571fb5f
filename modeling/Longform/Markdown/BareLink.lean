import Longform.Address.Bare
import Longform.Address.Basic
import Longform.Markdown.RawHtml
import Longform.Markdown.Token

/-! Bare addresses in text become links, outside links that are there already. -/
namespace Longform.BareLink

/-- The text of a link as readers see it. A scheme that the source leaves out is not shown. -/
def shownText (l : Bare.Link) : Text :=
  let without (scheme : Text) : Text :=
    let t := Address.shown (scheme ++ l.text)
    (Text.after? scheme t).getD t
  if l.scheme.isEmpty then without "http://".toList
  else if l.scheme = "mailto:".toList && !Text.startsWith l.scheme l.text then without l.scheme
  else Address.shown l.text

def tokens (href shown : Text) (level : Int) : List Token :=
  [{ (Token.make "link_open" "a" 1).withAttr "href" href with
      level := level, markup := "linkify".toList, info := "auto".toList },
    { Token.ofText shown with level := level + 1 },
    { Token.make "link_close" "a" (-1) with
      level := level, markup := "linkify".toList, info := "auto".toList }]

def textAt (level : Int) (t : Text) : List Token :=
  if t.isEmpty then [] else [{ Token.ofText t with level := level }]

/-- A text from position `pos` on, cut at its links. -/
def cut (level : Int) (pos : Nat) (t : Text) : List Bare.Link → Except Fault (List Token)
  | [] => .ok (textAt level t)
  | l :: ls => do
    let href ← Address.written l.address
    if Address.isAllowed href then
      let rest ← cut level l.stop (t.drop (l.stop - pos)) ls
      .ok (textAt level (t.take (l.start - pos)) ++ tokens href (shownText l) level ++ rest)
    else cut level pos t ls

/-- A text token cut at its links. Directly behind an escaped character no link begins. -/
def split (before : Option Token) (t : Token) : Except Fault (List Token) :=
  match Bare.links t.content with
  | [] => .ok [t]
  | l :: ls =>
    let escaped := before.any fun b => b.kind = "text_special"
    cut t.level 0 t.content (if l.start = 0 && escaped then ls else l :: ls)

/-- What is left of the tokens before a closing link, from the last to the first, once its opening
is passed. -/
def passLink (level : Int) : List Token → List Token × List Token
  | [] => ([], [])
  | t :: r =>
    if t.level = level || t.kind = "link_open" then ([t], r)
    else
      let (passed, rest) := passLink level r
      (t :: passed, rest)

/-- Visits tokens from the last to the first; `raw` counts the raw links around the place and
`after` holds what is done. -/
def linkFrom : Nat → Int → List Token → List Token → Except Fault (List Token)
  | 0, _, before, after => .ok (before.reverse ++ after)
  | _, _, [], after => .ok after
  | fuel + 1, raw, t :: before, after =>
    if t.kind = "link_close" then
      let (passed, rest) := passLink t.level before
      linkFrom fuel raw rest (passed.reverse ++ t :: after)
    else
      let isTag := t.kind = "html_inline"
      let raw := if isTag && Markdown.RawHtml.opensLink t.content && 0 < raw then raw - 1 else raw
      let raw := if isTag && Markdown.RawHtml.closesLink t.content then raw + 1 else raw
      if raw ≤ 0 && t.kind = "text" then do
        let pieces ← split before.head? t
        linkFrom fuel raw before (pieces ++ after)
      else linkFrom fuel raw before (t :: after)

def linkChildren (cs : List Token) : Except Fault (List Token) := linkFrom cs.length 0 cs.reverse []

/-- Links the bare addresses in a token's children. -/
def linkToken (t : Token) : Except Fault Token :=
  match t.children with
  | some cs =>
    if t.kind = "inline" && Bare.mayHoldLink t.content then
      (linkChildren cs).map fun linked => { t with children := some linked }
    else .ok t
  | none => .ok t

end Longform.BareLink
