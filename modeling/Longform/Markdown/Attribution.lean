import Longform.Markdown.Token

/-! Attributions of quotes. When the last paragraph of a block quote has a line that begins with a
marker, that line and all after it become the caption of a figure around the quote. -/
namespace Longform.Attribution

/-- Whether a child is a text that begins with the marker after its leading blanks. -/
def startsWithMarker (marker : Text) (t : Token) : Bool :=
  t.kind = "text" && Text.startsWith marker (Text.trimStart t.content)

/-- The position of the first child that starts a line with the marker; `atStart` tells whether the
first child of the list starts a line. -/
def markerLine? (marker : Text) : Bool → List Token → Option Nat
  | _, [] => none
  | atStart, t :: r =>
    if atStart && startsWithMarker marker t then some 0
    else (markerLine? marker t.isBreak r).map (· + 1)

/-- Drops the breaks at the end. -/
def dropEndBreaks : List Token → List Token
  | [] => []
  | t :: r => match dropEndBreaks r with
    | [] => if t.isBreak then [] else [t]
    | u :: s => t :: u :: s

/-- The content of the marked line after the marker. -/
def afterMarker (marker content : Text) : Text :=
  Text.trimStart ((Text.trimStart content).drop marker.length)

/-- The children of a paragraph before the marked line and from it on, the marker cut off. -/
def split? (marker : Text) (children : List Token) : Option (List Token × List Token) :=
  match markerLine? marker true children with
  | none => none
  | some n => match children.drop n with
    | [] => none
    | first :: rest =>
      some (dropEndBreaks (children.take n),
        Token.ofText (afterMarker marker first.content) :: rest)

/-- The caption of a quote. -/
def caption (marker content : Text) (children : List Token) : List Token :=
  [{ Token.make "attribution_open" "figcaption" 1 with block := true, markup := marker },
    { Token.make "inline" "" 0 with content := content, children := some children },
    { Token.make "attribution_close" "figcaption" (-1) with block := true }]

def mark (t : Token) : Token :=
  { t with marks := Dictionary.set "attribution".toList (.bool true) t.marks }

def isOpening (level : Int) (t : Token) : Bool := t.kind = "blockquote_open" && t.level = level

/-- Marks the opening that a closing at `level` matches: the nearest before it. The tokens are given
from the last to the first. -/
def markOpening? (level : Int) : List Token → Option (List Token)
  | [] => none
  | t :: r => if isOpening level t then some (mark t :: r) else (markOpening? level r).map (t :: ·)

/-- What a quote becomes: the tokens before its closing, from the last to the first, the closing,
and the caption that follows it. -/
structure Attached where
  before : List Token
  closing : Token
  figcaption : List Token

/-- Cuts the attribution out of the paragraph in front of a closing. A paragraph without other lines
goes away; when the quote has lost its opening with it, the closing takes the mark. -/
def attach? (marker : Text) (before : List Token) (closing : Token) : Option Attached :=
  match before, markOpening? closing.level before with
  | last :: inlineToken :: third :: _, some marked =>
    if last.kind = "paragraph_close" && last.level = closing.level + 1 &&
        inlineToken.kind = "inline" then
      match split? marker (inlineToken.children.getD []) with
      | none => none
      | some (quote, children) =>
        let lines := Text.lines inlineToken.content
        let kept := (quote.filter Token.isBreak).length + 1
        if quote.isEmpty then
          some ⟨marked.drop 3, if isOpening closing.level third then mark closing else closing,
            caption marker inlineToken.content children⟩
        else
          let shortened := { inlineToken with
            children := some quote, content := Text.joinLines (lines.take kept) }
          some ⟨last :: shortened :: marked.drop 2, closing,
            caption marker (Text.joinLines (lines.drop kept)) children⟩
    else none
  | _, _ => none

/-- Visits the closings of quotes from the last to the first; `before` is what is still to be
visited, from the last to the first, `after` what is done. -/
def attachFrom (marker : Text) : Nat → List Token → List Token → List Token
  | 0, before, after => before.reverse ++ after
  | _, [], after => after
  | fuel + 1, t :: before, after =>
    match if t.kind = "blockquote_close" then attach? marker before t else none with
    | some a => attachFrom marker fuel a.before (a.closing :: a.figcaption ++ after)
    | none => attachFrom marker fuel before (t :: after)

/-- The stream with every attribution moved behind its quote. -/
def attach (marker : Text) (ts : List Token) : List Token := attachFrom marker ts.length ts.reverse []

end Longform.Attribution
