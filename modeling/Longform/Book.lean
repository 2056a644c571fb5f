import Longform.Chapter
import Longform.Document

/-! Documents in chapters, each compiled for itself. An abbreviation that one chapter defines holds
in all of them. -/
namespace Longform

structure Book.Chapter where
  title : Text
  piece : Document.Piece
deriving DecidableEq, Repr

structure Book where
  metadata : FrontMatter.Metadata
  chapters : List Book.Chapter

namespace Book

/-- The titles, tokens and abbreviations of chapters. -/
def parseAll (context : Context) (cs : List Longform.Chapter) :
    Except Fault (List (Text × List Token × Dictionary Text)) :=
  cs.mapM fun c => (Document.tokens context c.source).map fun p => (c.title, p)

/-- The chapters of a source, rendered with the abbreviations of all. -/
def render (context : Context) (s : Source) : Compile (List Chapter.Rendered) := do
  let parsed ← Compile.ofExcept (parseAll context (Chapter.split s.body))
  let abbreviations := parsed.foldl (fun found (_, _, own) => Dictionary.merge found own) []
  parsed.mapM fun (title, ts, _) => do pure ⟨title, ← Document.markup context abbreviations ts⟩

/-- Rendered chapters with their notes, the first of them at `position`. -/
def annotate (context : Context) (s : Source) :
    Nat → List Chapter.Rendered → Except Fault (List Book.Chapter)
  | _, [] => .ok []
  | position, c :: cs => do
    let piece ← Document.Piece.make context s position c.html
    let rest ← annotate context s (position + 1) cs
    .ok (⟨c.title, piece⟩ :: rest)

/-- Compiles a text in chapters. -/
def compile (context : Context) (t : Text) : Compile Book := do
  let s ← Source.read context t
  let rendered ← render context s
  let chapters ← Compile.ofExcept (annotate context s 0 rendered)
  pure ⟨s.settings, chapters⟩

end Book
end Longform
