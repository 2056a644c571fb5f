import Longform.Chapter
import Longform.Document
import Longform.Slide

/-! A text on its way through the stages of compilation, taken in any order. -/
namespace Longform

structure Draft where
  text : Text
  /-- The settings found so far, none when they could not be read. -/
  metadata : Option FrontMatter.Metadata
  notes : Dictionary Text

namespace Draft

def ofText (t : Text) : Draft := ⟨t, some [], []⟩

def fillAttributes (room : Nat) (attributes : List (Value × Value)) (d : Draft) : Except Fault Draft :=
  (Placeholder.fillAttributes room attributes d.text).map fun t => { d with text := t }

def splitFrontMatter (room : Nat) (d : Draft) : Compile Draft := do
  let (metadata, body) ← FrontMatter.split room d.text
  pure { d with text := body, metadata := metadata }

def fillVariables (room : Nat) (d : Draft) : Except Fault Draft :=
  (Placeholder.fillVariables room (d.metadata.getD []) d.text).map fun t => { d with text := t }

def extractNotes (d : Draft) : Draft :=
  let (found, body) := Footnote.extract d.text
  { d with text := body, notes := d.notes.merge found }

def expandFigures (d : Draft) : Draft := { d with text := Figure.expand d.text }

/-- Only what the chapters hold, with a separator between them. -/
def joinChapters (separator : Text) (d : Draft) : Draft :=
  { d with text := Text.join separator (Chapter.sources d.text) }

/-- Links the references of a rendered text; gives the unit, too. -/
def attachNotes (render : Text → Except Fault Text) (unit : Int) (d : Draft) :
    Except Fault (Draft × Footnote.Unit) :=
  (Footnote.attach render d.notes unit d.text).map fun u => ({ d with text := u.html }, u)

def render (room : Nat) (d : Draft) : Compile Draft := do
  pure { d with text := ← Markdown.compile room none d.text }

def append (t : Text) (d : Draft) : Draft := { d with text := d.text ++ t }

end Draft
end Longform
