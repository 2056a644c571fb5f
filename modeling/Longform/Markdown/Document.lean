import Longform.Markdown.Attribution
import Longform.Markdown.BareLink
import Longform.Markdown.Block
import Longform.Markdown.Checkbox
import Longform.Markdown.Inline
import Longform.Markdown.Typography

/-! Documents as tokens: block structure first, then the running text of every block, then the
passes that work on the text as a whole. -/
namespace Longform.Markdown

/-- Line breaks of every kind become line feeds, and the null character a mark. -/
def normalize : Text → Text
  | [] => []
  | '\r' :: '\n' :: r => '\n' :: normalize r
  | c :: r => (if c = '\r' then '\n' else if c.toNat = 0 then '\uFFFD' else c) :: normalize r

/-- Reads the running text of a block. -/
def readInline (c : Inline.Context) (t : Token) : Except Fault Token :=
  if t.kind = "inline" then (Inline.parse c t.content).map fun cs => { t with children := some cs }
  else .ok t

/-- Texts that stand side by side are one text, and escaped characters are part of it. -/
def joinTexts : List Token → List Token
  | [] => []
  | t :: r =>
    let t := if t.kind = "text_special" then { t with kind := "text" } else t
    match joinTexts r with
    | [] => [t]
    | u :: s =>
      if t.kind = "text" && u.kind = "text" then { t with content := t.content ++ u.content } :: s
      else t :: u :: s

def joinToken (t : Token) : Token :=
  if t.kind = "inline" then { t with children := some (joinTexts (t.children.getD [])) } else t

/-- Begins the line that attributes a quote. -/
def attributionMarker : Text := "cite:".toList

/-- Everything that is done with block tokens whose running text is not read yet. -/
def finish (c : Inline.Context) (ts : List Token) : Except Fault (List Token) := do
  let ts ← ts.mapM (readInline c)
  let ts ← (Checkbox.markAll (Attribution.attach attributionMarker ts)).mapM BareLink.linkToken
  .ok (ts.map fun t => joinToken (Typography.curlQuotes (Typography.replaceMarks t)))

/-- The tokens of a document. -/
def parse (searchPrefix : Option Text) (t : Text) : Except Fault (List Token) :=
  (Block.parse (normalize t)).bind fun (ts, definitions) => finish ⟨definitions, searchPrefix⟩ ts

/-- The tokens of a text without block structure. -/
def parseInline (searchPrefix : Option Text) (t : Text) : Except Fault (List Token) :=
  finish ⟨[], searchPrefix⟩ [Block.inlineToken (normalize t) 0 1]

end Longform.Markdown
