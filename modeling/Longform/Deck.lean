import Longform.Document
import Longform.Slide

/-! Documents as slides, numbered from one. -/
namespace Longform

structure Deck.Slide where
  number : Nat
  piece : Document.Piece
deriving DecidableEq, Repr

structure Deck where
  metadata : FrontMatter.Metadata
  slides : List Deck.Slide

namespace Deck

/-- Fragments as slides with their notes, the first of them at `position`. -/
def annotate (context : Context) (s : Source) : Nat → List Text → Except Fault (List Deck.Slide)
  | _, [] => .ok []
  | position, f :: fs => do
    let piece ← Document.Piece.make context s position f
    let rest ← annotate context s (position + 1) fs
    .ok (⟨position + 1, piece⟩ :: rest)

/-- Compiles a text as slides. -/
def compile (context : Context) (t : Text) : Compile Deck := do
  let s ← Source.read context t
  let html ← Document.body context s
  let slides ← Compile.ofExcept (annotate context s 0 (Slide.split html))
  pure ⟨s.settings, slides⟩

end Deck
end Longform
