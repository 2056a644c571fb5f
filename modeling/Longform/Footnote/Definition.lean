import Longform.Dictionary
import Longform.Fence

/-! Footnote definitions in source text. A line `[^id]: content` outside fences defines a note, the
indented lines right below continue it, and all of them are taken out of the text. -/
namespace Longform.Footnote

/-- The id and first content of a definition line. Blanks before the content are dropped; of a line
of blanks only, the last one is the content. -/
def definition? (line : Text) : Option (Text × Text) :=
  match Text.after? "[^".toList line with
  | none => none
  | some r => match Text.cutAt ']' r with
    | some (id, ':' :: s) =>
      if id.isEmpty then none
      else match s.dropWhile Text.isBlank, s.getLast? with
        | [], none => none
        | [], some c => some (id, [c])
        | content, _ => some (id, content)
    | _ => none

/-- A line that continues the definition above it: four spaces or a tab of indentation. -/
def continues (line : Text) : Bool :=
  Text.startsWith "    ".toList line || Text.startsWith ['\t'] line

/-- A continuation line joined to a note. -/
def extend (line : Text) : Option Text → Text
  | none => '\n' :: Text.trim line
  | some note => note ++ '\n' :: Text.trim line

/-- Reads lines with the notes found so far and the id of the definition that is still open; gives
all notes and the lines that remain. -/
def extractFrom (notes : Dictionary Text) :
    Option Text → List (Text × Bool) → Dictionary Text × List Text
  | _, [] => (notes, [])
  | current, (line, fenced) :: r =>
    if fenced then keep line (extractFrom notes none r)
    else match current.filter fun _ => continues line with
      | some id => extractFrom (notes.alter id (extend line)) (some id) r
      | none => match definition? line with
        | some (id, content) => extractFrom (notes.set id content) (some id) r
        | none => keep line (extractFrom notes none r)
where
  keep (line : Text) (out : Dictionary Text × List Text) : Dictionary Text × List Text :=
    (out.1, line :: out.2)

/-- The notes a text defines, in order of first definition, and the text without them. -/
def extract (t : Text) : Dictionary Text × Text :=
  let out := extractFrom [] none (Fence.scan (Text.lines t))
  (out.1, Text.joinLines out.2)

end Longform.Footnote
