import Longform.Text.Escape
import Longform.Value.Display
import Longform.Yaml.Construct

/-! Charts: a mapping of settings, some of which become attributes of an element whose content is
the data. -/
namespace Longform.Chart

/-- The settings that become attributes, in this order. -/
def attributeNames : List Text := ["type", "width", "height", "orientation", "monochrome", "color",
  "line-width", "radius", "min-radius", "max-radius", "labels"].map String.toList

/-- A setting that is there and not null. -/
def setting? (settings : List (Value × Value)) (name : Text) : Option Value :=
  match Value.field? name settings with
  | none | some .null => none
  | some v => some v

/-- The attributes for the settings that are given. -/
def attributes (room : Nat) (settings : List (Value × Value)) : List Text → Except Fault Text
  | [] => .ok []
  | name :: names => match setting? settings name with
    | none => attributes room settings names
    | some v => do
      let value ← v.stringify room
      let rest ← attributes room settings names
      .ok (' ' :: name ++ '=' :: '"' :: Text.escapeAttribute value ++ '"' :: rest)

/-- The data as JSON. -/
def content (room : Nat) (settings : List (Value × Value)) : Except Fault Text :=
  match setting? settings "data".toList with
  | none => .ok []
  | some v => (v.json .compact room 0).map Text.escapeContent

/-- The element of a chart. `room` is how many levels of collections may lie in each other. -/
def markup (room : Nat) (settings : List (Value × Value)) : Except Fault Text := do
  let attrs ← attributes room settings attributeNames
  let data ← content room settings
  .ok ("<dataroom-chart".toList ++ attrs ++ '>' :: data ++ "</dataroom-chart>\n".toList)

/-- The settings that a chart block holds. -/
def read (room : Nat) (source : Text) : Except Fault (List (Value × Value)) :=
  match Yaml.read room (Text.trim source) with
  | .error .malformed => .error .chartMalformed
  | .error (.refused cause) => .error cause
  | .ok (.map settings) => .ok settings
  | .ok v => .error (.chartKind v.kind)

end Longform.Chart
