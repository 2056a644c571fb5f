import Longform.Text.Letter
import Longform.Value.Display

/-! Placeholders in source text. `$name` is filled from the metadata of the document itself, a name
in double braces from the attributes that its host supplies. Both are one pass from left to right:
a filled value is never read again and an unknown placeholder stays as it is written. -/
namespace Longform.Placeholder

def isNameStart (c : Char) : Bool := c.isAlpha || c = '_'
def isNamePart (c : Char) : Bool := c.isAlphanum || c = '_' || c = '-'

/-- The name of the variable that a text begins with, and the text after it: a dollar sign, a letter
or underscore, and the longest run of name characters. -/
def variableAt? : Text → Option (Text × Text)
  | '$' :: c :: r =>
    if isNameStart c then some (c :: r.takeWhile isNamePart, r.dropWhile isNamePart) else none
  | _ => none

def isInside (c : Char) : Bool := c ≠ '\x7b' && c ≠ '\x7d'

/-- The name in double braces that a text begins with, and the text after them: anything but braces,
and something. -/
def attributeAt? : Text → Option (Text × Text)
  | '\x7b' :: '\x7b' :: r =>
    let name := r.takeWhile isInside
    match r.dropWhile isInside with
    | '\x7d' :: '\x7d' :: s => if name.isEmpty then none else some (name, s)
    | _ => none
  | _ => none

/-- Fills every placeholder that `read?` finds and `value?` knows, from left to right. `room` is how many
levels of collections may lie in each other. -/
def fillFrom (room : Nat) (read? : Text → Option (Text × Text)) (value? : Text → Option Value) :
    Nat → Text → Except Fault Text
  | 0, t => .ok t
  | _, [] => .ok []
  | fuel + 1, c :: r =>
    match read? (c :: r) with
    | none => do
      let rest ← fillFrom room read? value? fuel r
      .ok (c :: rest)
    | some (name, s) => do
      let piece ← match value? name with
        | some v => v.stringify room
        | none => .ok ((c :: r).take ((c :: r).length - s.length))
      let rest ← fillFrom room read? value? fuel s
      .ok (piece ++ rest)

/-- Fills the variables that are textual keys of the metadata. -/
def fillVariables (room : Nat) (metadata : List (Value × Value)) (t : Text) : Except Fault Text :=
  if metadata.isEmpty then .ok t
  else fillFrom room variableAt? (fun name => Value.field? name metadata) t.length t

/-- Fills the host attributes, whose names are trimmed. -/
def fillAttributes (room : Nat) (attributes : List (Value × Value)) (t : Text) :
    Except Fault Text :=
  if attributes.isEmpty then .ok t
  else fillFrom room attributeAt? (fun name => Value.field? (Text.trim name) attributes) t.length t

end Longform.Placeholder
