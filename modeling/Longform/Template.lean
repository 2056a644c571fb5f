import Longform.Text.Case

/-! A page template: its first `mark-down` element gives way to a rendered document. -/
namespace Longform
namespace Template

/-- What follows `p` in a text that begins with it, case ignored. -/
def afterFolded? : Text → Text → Option Text
  | [], t => some t
  | _ :: _, [] => none
  | p :: ps, c :: r => if Text.foldChar c = p then afterFolded? ps r else none

/-- What follows the first occurrence of `p`, case ignored. -/
def afterFirst? (p : Text) : Text → Option Text
  | [] => afterFolded? p []
  | c :: r => (afterFolded? p (c :: r)).orElse fun _ => afterFirst? p r

/-- The text after an element with a closing tag that the text begins with. -/
def afterElement? (t : Text) : Option Text :=
  match afterFolded? "<mark-down".toList t with
  | none => none
  | some r => match Text.cutAt '>' r with
    | none => none
    | some (_, s) => afterFirst? "</mark-down>".toList s

/-- The text after a self-closing element that the text begins with. -/
def afterSelfClosing? (t : Text) : Option Text :=
  match afterFolded? "<mark-down".toList t with
  | none => none
  | some r => match Text.cutAt '>' r with
    | none => none
    | some (tag, s) => if tag.getLast? = some '/' then some s else none

/-- The first place where `after?` succeeds gives way to `html`; none when it never does. -/
def replaceFirst? (after? : Text → Option Text) (html : Text) : Text → Option Text
  | [] => (after? []).map (html ++ ·)
  | c :: r => match after? (c :: r) with
    | some s => some (html ++ s)
    | none => (replaceFirst? after? html r).map (c :: ·)

/-- The template with its element replaced: the first with a closing tag, or else the first that
closes itself. -/
def fill (template html : Text) : Text :=
  match replaceFirst? afterElement? html template with
  | some t => t
  | none => (replaceFirst? afterSelfClosing? html template).getD template

end Template
end Longform
