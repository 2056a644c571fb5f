import Longform.Chart
import Longform.Compile
import Longform.Markdown.Document
import Longform.Network.Block

/-! Tokens as markup. Every kind of token has its form; all others are written as the tags they
open and close. -/
namespace Longform.Markdown

def attributesMarkup (attrs : Dictionary Value) : Text :=
  attrs.flatMap fun (k, v) =>
    ' ' :: Text.escapeMarkup k ++ '=' :: '"' :: Text.escapeMarkup v.plain ++ ['"']

/-- Whether a line break follows a tag: behind tags of blocks, unless text, a hidden token or the
closing of the same element comes next. -/
def endsLine (t : Token) (next : Option Token) : Bool :=
  t.block && !(t.nesting = 1 && next.any fun n =>
    n.kind = "inline" || n.hidden || (n.nesting = -1 && n.tag = t.tag))

/-- A token as a tag. Hidden tokens have none; behind one, a block begins on a new line. -/
def tagMarkup (before : Option Token) (t : Token) (next : Option Token) : Text :=
  if t.hidden then []
  else
    (if t.block && t.nesting ≠ -1 && before.any Token.hidden then ['\n'] else []) ++
      (if t.nesting = -1 then ['<', '/'] else ['<']) ++ t.tag.toList ++ attributesMarkup t.attrs ++
      (if endsLine t next then ['>', '\n'] else ['>'])

mutual
/-- The text of inline content without its markup. -/
def plainText : List Token → Text
  | [] => []
  | t :: r => plainToken t ++ plainText r
def plainToken : Token → Text
  | ⟨kind, _, _, _, _, _, children, content, _, _, _, _, _⟩ =>
    if kind = "text" then content
    else if kind = "image" then
      match children with
      | some cs => plainText cs
      | none => []
    else if kind = "softbreak" then ['\n']
    else []
end

/-- An image's description is the text of its children. -/
def describe (t : Token) : Token :=
  if t.kind = "image" then t.withAttr "alt" (plainText (t.children.getD [])) else t

/-- The first word of an info string, and the rest. -/
def firstWord (info : Text) : Text × Text :=
  let t := Text.trimStart info
  (t.takeWhile fun c => !Text.isBlank c, t.dropWhile fun c => !Text.isBlank c)

def codeMarkup (attrs : Dictionary Value) (content : Text) : Text :=
  "<pre><code".toList ++ attributesMarkup attrs ++ '>' :: Text.escapeMarkup content ++
    "</code></pre>\n".toList

/-- A class added to those that are there. -/
def withClass (name : Text) (attrs : Dictionary Value) : Dictionary Value :=
  attrs.alter "class".toList fun
    | none => .text name
    | some v => .text (v.plain ++ ' ' :: name)

/-- A fence as code; the first word of its info string names the language. -/
def fenceAsCode (t : Token) : Text :=
  let (language, _) := firstWord (Text.trim (unescape t.info))
  codeMarkup (if language.isEmpty then t.attrs else withClass ("language-".toList ++ language) t.attrs)
    t.content

/-- The markup of a block in a language of its own, if its info string names one. -/
def drawing? (room : Nat) (t : Token) : Option (Except Fault Text) :=
  let info := Text.trim t.info
  if info = "chart".toList then some ((Chart.read room t.content).bind (Chart.markup room))
  else if info = "network".toList then some ((Network.Block.read t.content).map Network.Block.markup)
  else if (firstWord info).1 = "mermaid".toList then
    some (.ok ("<div class=\"mermaid\">".toList ++ Text.escapeContent t.content ++ "</div>\n".toList))
  else none

/-- Faults of a block's own language; such a block is shown as code. -/
def isUndecodable : Fault → Bool
  | .chartMalformed | .chartKind _ | .networkEmpty => true
  | _ => false

def fenceMarkup (room : Nat) (t : Token) : Compile Text :=
  match drawing? room t with
  | none => pure (fenceAsCode t)
  | some (.ok drawn) => pure drawn
  | some (.error e) =>
    if isUndecodable e then do
      Compile.note .fence
      pure (fenceAsCode t)
    else throw e

/-- The markup of a token between its neighbours, fences and running text apart. -/
def plainMarkup (before : Option Token) (t : Token) (next : Option Token) : Text :=
  match t.kind with
  | "text" => Text.escapeMarkup t.content
  | "html_block" | "html_inline" => t.content
  | "code_inline" =>
    "<code".toList ++ attributesMarkup t.attrs ++ '>' :: Text.escapeMarkup t.content ++
      "</code>".toList
  | "code_block" =>
    "<pre".toList ++ attributesMarkup t.attrs ++ "><code>".toList ++ Text.escapeMarkup t.content ++
      "</code></pre>\n".toList
  | "image" => tagMarkup before (describe t) next
  | "hardbreak" | "softbreak" => "<br>\n".toList
  | "aside_open" =>
    if t.info.isEmpty then "<aside>\n".toList
    else "<aside class=\"".toList ++ Text.escapeAttribute t.info ++ "\">\n".toList
  | "aside_close" => "</aside>\n".toList
  | "blockquote_open" =>
    let tag := tagMarkup before t next
    if (t.marks.find? "attribution".toList).any Value.isTruthy then
      "<figure class=\"c-quote\">\n".toList ++ tag
    else tag
  | "attribution_open" => "<figcaption class=\"c-quote__attribution\">".toList
  | "attribution_close" => "</figcaption>\n</figure>\n".toList
  | _ => tagMarkup before t next

/-- The markup of a token between its neighbours, running text apart. -/
def tokenMarkup (room : Nat) (before : Option Token) (t : Token) (next : Option Token) : Compile Text :=
  if t.kind = "fence" then fenceMarkup room t else pure (plainMarkup before t next)

/-- The markup of tokens, each by `f` from its neighbours. -/
def eachMarkup (f : Option Token → Token → Option Token → Compile Text) :
    Option Token → List Token → Compile Text
  | _, [] => pure []
  | before, t :: r => do
    let own ← f before t r.head?
    let rest ← eachMarkup f (some t) r
    pure (own ++ rest)

/-- Running text, or any other token of a block stream. -/
def blockMarkup (room : Nat) (before : Option Token) (t : Token) (next : Option Token) : Compile Text :=
  if t.kind = "inline" then eachMarkup (tokenMarkup room) none (t.children.getD [])
  else tokenMarkup room before t next

/-- The markup of a stream of tokens. `room` is how many levels of collections may lie in each other in
the settings of a chart. -/
def render (room : Nat) (ts : List Token) : Compile Text := eachMarkup (blockMarkup room) none ts

/-- The stream as rendering leaves it: every image with its description. -/
def describeImages (ts : List Token) : List Token :=
  ts.map fun t =>
    if t.kind = "inline" then { t with children := t.children.map (·.map describe) } else describe t

/-- The markup of running text, in which fences do not occur. -/
def runMarkup : Option Token → List Token → Text
  | _, [] => []
  | before, t :: r => plainMarkup before t r.head? ++ runMarkup (some t) r

/-- The markup of a text without block structure. -/
def renderInline (searchPrefix : Option Text) (t : Text) : Except Fault Text :=
  (parseInline searchPrefix t).map fun ts => ts.flatMap fun u => runMarkup none (u.children.getD [])

/-- The markup of a document. -/
def compile (room : Nat) (searchPrefix : Option Text) (t : Text) : Compile Text := do
  let ts ← Compile.ofExcept (parse searchPrefix t)
  render room ts

end Longform.Markdown
