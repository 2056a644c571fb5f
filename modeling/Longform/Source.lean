import Longform.Footnote.Definition
import Longform.FrontMatter
import Longform.Placeholder

/-! Source texts and what surrounds them: the attributes that a host supplies, the settings in front,
the notes at any place, and the body that is left. -/
namespace Longform

/-- What the host of a document supplies. -/
structure Context where
  attributes : List (Value × Value)
  /-- Where links between pages search, if they do not lead to files. -/
  searchPrefix : Option Text
  /-- How many levels of collections may lie in each other before the stack of calls is used up. -/
  room : Nat

namespace Context

/-- What a stack of a thousand calls has room for, at two calls a level. -/
def usualRoom : Nat := 480

def empty : Context := ⟨[], none, usualRoom⟩

/-- The entries of a setting that is a mapping. -/
def entriesOf : Option Value → List (Value × Value)
  | some (.map es) => es
  | _ => []

/-- A context by its settings. A search prefix of its own wins over one among the attributes. -/
def ofSettings (settings : List (Value × Value)) : Context :=
  let attributes := entriesOf (Value.field? "attributes".toList settings)
  let own := (Value.field? "wikilinks_search_prefix".toList settings).filter Value.isTruthy
  let shared := (Value.field? "wikilinks-search-prefix".toList attributes).filter Value.isTruthy
  ⟨attributes, (own.or shared).map Value.plain, usualRoom⟩

end Context

/-- A source text without what surrounds its body. -/
structure Source where
  /-- None when the settings cannot be read. -/
  metadata : Option FrontMatter.Metadata
  body : Text
  notes : Dictionary Text

namespace Source

/-- Line breaks of two characters become line feeds. -/
def joinBreaks : Text → Text
  | [] => []
  | '\r' :: '\n' :: r => '\n' :: joinBreaks r
  | c :: r => c :: joinBreaks r

/-- Fills the attributes of the host, splits off the settings, fills the variables that they define,
and takes the notes out of the body. -/
def read (context : Context) (t : Text) : Compile Source := do
  let filled ← Compile.ofExcept (Placeholder.fillAttributes context.room context.attributes t)
  let (metadata, body) ← FrontMatter.split context.room (Text.trim (joinBreaks filled))
  let body ← Compile.ofExcept (Placeholder.fillVariables context.room (metadata.getD []) body)
  let (notes, body) := Footnote.extract body
  pure ⟨metadata, body, notes⟩

/-- The settings, none of them if they cannot be read. -/
def settings (s : Source) : FrontMatter.Metadata := s.metadata.getD []

end Source
end Longform
