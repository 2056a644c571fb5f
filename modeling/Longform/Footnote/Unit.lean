import Longform.Footnote.Reference
import Longform.Html.Parse

/-! Footnotes of a unit of a document: a slide, a page, a chapter. References in the unit become
links, and the unit gets a list of just the notes that it refers to. -/
namespace Longform.Footnote

/-- A unit with its references linked, the ids it refers to, and its list of notes. -/
structure Unit where
  html : Text
  ids : List Text
  list : Text
deriving DecidableEq, Repr

def Unit.fullHtml (u : Unit) : Text := u.html ++ u.list

/-- A list without repetitions, in order of first occurrence. -/
def firsts : List Text → List Text → List Text
  | _, [] => []
  | seen, id :: ids => if Text.isOneOf id seen then firsts seen ids else id :: firsts (id :: seen) ids

/-- The notes that a fragment refers to, in order of first reference. -/
def referenced (notes : Dictionary Text) (fragment : Text) : Except Fault (List Text) :=
  (Html.parse fragment).map fun ns => firsts [] (occurrencesAll notes.hasKey ns)

/-- A fragment with its references linked. -/
def linked (notes : Dictionary Text) (unit : Int) (fragment : Text) : Except Fault Text :=
  (Html.parse fragment).map fun ns => Html.markup (linkAll notes.hasKey unit ns)

/-- A note in the list of a unit, with a link back. -/
def itemMarkup (unit : Int) (id content : Text) : Text :=
  "<li id=\"".toList ++ noteAnchor unit id ++ "\">".toList ++ content ++ " <a href=\"#".toList ++
    referenceAnchor unit id ++ "\" class=\"footnote-backref\">↩</a></li>".toList

/-- The content of a note where no other way to write it is given. -/
def plainNote (note : Text) : Except Fault Text := .ok (Text.escapeContent note)

/-- What the list has for an id: nothing, if the note is not known. `render` writes the content of a note,
or refuses it. -/
def itemOf (render : Text → Except Fault Text) (notes : Dictionary Text) (unit : Int) (id : Text) :
    Except Fault Text :=
  match notes.find? id with
  | none => .ok []
  | some note => (render note).map (itemMarkup unit id)

/-- The list of some notes. -/
def listMarkup (render : Text → Except Fault Text) (notes : Dictionary Text) (unit : Int)
    (ids : List Text) : Except Fault Text :=
  if ids.isEmpty then .ok []
  else do
    let items ← ids.mapM (itemOf render notes unit)
    .ok ("<div class=\"unit-footnotes\"><ol class=\"unit-footnotes-list\">".toList ++ items.flatten ++
      "</ol></div>".toList)

/-- Attaches the notes that a fragment refers to. A fragment without references stays as it is. -/
def attach (render : Text → Except Fault Text) (notes : Dictionary Text) (unit : Int) (fragment : Text) :
    Except Fault Unit :=
  match referenced notes fragment with
  | .error e => .error e
  | .ok ids =>
    if ids.isEmpty then .ok ⟨fragment, [], []⟩
    else do
      let html ← linked notes unit fragment
      let list ← listMarkup render notes unit ids
      .ok ⟨html, ids, list⟩

end Longform.Footnote
