import Longform.Compile
import Longform.Yaml.Construct

/-! Front matter: a block of settings between rules at the very beginning of a text. -/
namespace Longform.FrontMatter

/-- Settings by name, in order. -/
abbrev Metadata := List (Value × Value)

/-- The settings that a block holds; an empty block holds none. `room` is how many levels of collections
may lie in each other. -/
def decode (room : Nat) (source : Text) : Except Fault Metadata :=
  match Yaml.read room source with
  | .error .malformed => .error .metadataMalformed
  | .error (.refused cause) => .error cause
  | .ok .null => .ok []
  | .ok (.map settings) => .ok settings
  | .ok v => .error (.metadataKind v.kind)

/-- What is before and after the first line break that a rule follows. -/
def cutAtRule : Text → Option (Text × Text)
  | [] => none
  | c :: r => match Text.after? "\n---".toList (c :: r) with
    | some rest => some ([], rest)
    | none => (cutAtRule r).map fun (a, b) => (c :: a, b)

/-- The block and the text behind it. -/
def cut (t : Text) : Option (Text × Text) := (Text.after? "---\n".toList t).bind cutAtRule

def isUndecodable : Fault → Bool
  | .metadataMalformed | .metadataKind _ => true
  | _ => false

/-- The settings of a text and its body. The settings are none when they cannot be read. -/
def split (room : Nat) (t : Text) : Compile (Option Metadata × Text) :=
  match cut t with
  | none => pure (some [], Text.trim t)
  | some (source, rest) => match decode room source with
    | .ok settings => pure (some settings, Text.trim rest)
    | .error e =>
      if isUndecodable e then do
        Compile.note .frontMatter
        pure (none, Text.trim rest)
      else throw e

end Longform.FrontMatter
