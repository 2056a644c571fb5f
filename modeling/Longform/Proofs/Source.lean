import Longform.Proofs.Value.Display
import Longform.Source

/-! What a source text can be read to. Settings that cannot be read are none; only settings with a
value that cannot be made, and variables without a text, keep the body from being found. -/
namespace Longform

namespace Placeholder

variable {room : Nat}

end Placeholder

namespace FrontMatter

variable (room : Nat)

/-- The settings in front of a text, none of them when they cannot be read. -/
def settingsOf (t : Text) : Metadata :=
  match cut t with
  | none => []
  | some (source,_) => match decode room source with
    | .ok settings => settings
    | .error _ => []

/-- The reader of values refuses one in the settings in front of a text. -/
def Refuses (t : Text) (e : Fault) : Prop :=
  ∃ source rest, cut t = some (source,rest) ∧ Yaml.read room source = .error (.refused e)

variable {room}

end FrontMatter

namespace Source

/-- Why the body of a text is not found. -/
inductive Obstacle (room : Nat) (t : Text) : Fault → Prop
  | settings {e} : FrontMatter.Refuses room t e → Obstacle room t e
  | variable {name v e} : Value.field? name (FrontMatter.settingsOf room t) = some v →
      v.NoText room e → Obstacle room t e

/-- The text in front of which settings are looked for. -/
def filled (context : Context) (t : Text) : Except Fault Text :=
  (Placeholder.fillAttributes context.room context.attributes t).map fun u => Text.trim (joinBreaks u)

end Source
end Longform
