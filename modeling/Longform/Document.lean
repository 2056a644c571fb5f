import Longform.Figure
import Longform.Footnote.Unit
import Longform.Markdown.Abbreviation
import Longform.Markdown.Render
import Longform.Source

/-! Whole documents, compiled in one piece. -/
namespace Longform

/-- A compiled piece of a document: its markup with the notes behind it, and the notes it refers
to. -/
structure Document.Piece where
  html : Text
  noteIds : List Text
deriving DecidableEq, Repr

structure Document where
  metadata : FrontMatter.Metadata
  piece : Document.Piece

namespace Document

/-- The tokens of a body and the abbreviations that it defines. -/
def tokens (context : Context) (body : Text) : Except Fault (List Token × Dictionary Text) :=
  (Markdown.parse context.searchPrefix (Figure.expand body)).map Abbreviation.collect

/-- The markup of tokens, with the terms of abbreviations wrapped. -/
def markup (context : Context) (abbreviations : Dictionary Text) (ts : List Token) : Compile Text :=
  Markdown.render context.room (Abbreviation.replace abbreviations ts)

/-- The markup of a body, with its own abbreviations. -/
def body (context : Context) (s : Source) : Compile Text := do
  let (ts, abbreviations) ← Compile.ofExcept (tokens context s.body)
  markup context abbreviations ts

/-- The piece at a position, from its markup. -/
def Piece.make (context : Context) (s : Source) (position : Nat) (html : Text) :
    Except Fault Piece :=
  (Footnote.attach (Markdown.renderInline context.searchPrefix) s.notes position html).map fun u =>
    ⟨u.fullHtml, u.ids⟩

/-- Compiles a text. -/
def compile (context : Context) (t : Text) : Compile Document := do
  let s ← Source.read context t
  let html ← body context s
  let piece ← Compile.ofExcept (Piece.make context s 0 html)
  pure ⟨s.settings, piece⟩

end Document
end Longform
