import Longform.Fence
import Longform.Text.Case
import Longform.Text.Escape

/-! Captioned images. An image line `![[target]]`, with an optional alternative text after it, and
the line below become one figure; targets that do not look like images and the lines of fences stay
as they are. -/
namespace Longform
namespace Figure

def suffixes : List Text :=
  [".jpg", ".jpeg", ".webp", ".png", ".gif", ".svg", ".mp4"].map String.toList

/-- Whether a text ends with one of the image suffixes, in either case; a last line feed after the
suffix is overlooked. -/
def hasImageSuffix (t : Text) : Bool :=
  let ends (u : Text) := suffixes.any fun s => s.reverse.isPrefixOf (u.reverse.map Text.foldChar)
  ends t || (t.getLast? = some '\n' && ends t.dropLast)

/-- Whether a target looks like an image; anything absolute counts. -/
def isImageTarget (t : Text) : Bool :=
  hasImageSuffix t || Text.contains "placehold".toList t || Text.startsWith "http".toList t ||
    Text.startsWith ['/'] t

/-- The markup of a figure. -/
def markup (src alt caption : Text) : Text :=
  "<figure><img src=\"".toList ++ Text.escapeAttribute (Text.trim src) ++ "\" alt=\"".toList ++
    Text.escapeAttribute (Text.trim alt) ++ "\"><figcaption>".toList ++
    Text.escapeContent (Text.trim caption) ++ "</figcaption></figure>".toList

/-- A captioned image as it is written: target, alternative text, caption, and the text after it. -/
structure Reading where
  target : Text
  alt : Text
  caption : Text
  rest : Text

def isGap (c : Char) : Bool := c = ' ' || c = '\t'

/-- The target of the image link that a text begins with, and what follows the link. -/
def target? (t : Text) : Option (Text × Text) :=
  match Text.after? "![[".toList t with
  | none => none
  | some r => match Text.cutAt ']' r with
    | some (target, ']' :: s) => if target.isEmpty then none else some (target, s)
    | _ => none

/-- The rest of a line, which has to hold something, and what follows it. -/
def line? (t : Text) : Option (Text × Text) :=
  let l := t.takeWhile (· ≠ '\n')
  if l.isEmpty then none else some (l, t.dropWhile (· ≠ '\n'))

/-- The line below the present one. -/
def lineBelow? : Text → Option (Text × Text)
  | '\n' :: r => line? r
  | _ => none

/-- An image line with alternative text, and its caption. When only a gap of several characters
follows the link, the last of them is the alternative text. -/
def withAlt? (t : Text) : Option Reading :=
  match target? t with
  | none => none
  | some (target, s) =>
    let gap := s.takeWhile isGap
    let body := s.dropWhile isGap
    let alt := body.takeWhile (· ≠ '\n')
    if gap.isEmpty || (alt.isEmpty && gap.length < 2) then none
    else match lineBelow? (body.dropWhile (· ≠ '\n')) with
      | none => none
      | some (caption, rest) =>
        some ⟨target, if alt.isEmpty then gap.drop (gap.length - 1) else alt, caption, rest⟩

/-- An image line without alternative text, and its caption, which doubles as one. -/
def withoutAlt? (t : Text) : Option Reading :=
  match target? t with
  | none => none
  | some (target, s) => match lineBelow? s with
    | none => none
    | some (caption, rest) => some ⟨target, caption, caption, rest⟩

/-- A reading as figure markup, or as the source it was read from when the target is no image. -/
def Reading.render (t : Text) (x : Reading) : Text :=
  if isImageTarget x.target then markup x.target x.alt x.caption
  else t.take (t.length - x.rest.length)

/-- One pass over the text: a reading is sought at every line start that no reading has consumed. -/
def expandFrom (read? : Text → Option Reading) : Nat → Bool → Text → Text
  | 0, _, t => t
  | _, _, [] => []
  | fuel + 1, atStart, c :: r =>
    match if atStart then read? (c :: r) else none with
    | some x => x.render (c :: r) ++ expandFrom read? fuel false x.rest
    | none => c :: expandFrom read? fuel (c = '\n') r

def expandEach (read? : Text → Option Reading) (t : Text) : Text :=
  expandFrom read? t.length true t

/-- Figures with alternative text first, then those without. -/
def expandSegment (t : Text) : Text := expandEach withoutAlt? (expandEach withAlt? t)

/-- Maximal runs of lines outside fences are read for figures, the lines of fences are copied. -/
def expandLines : List Text → List (Text × Bool) → List Text
  | buffer, [] => flush buffer
  | buffer, (line, fenced) :: r =>
    if fenced then flush buffer ++ line :: expandLines [] r
    else expandLines (buffer ++ [line]) r
where
  flush (buffer : List Text) : List Text :=
    if buffer.isEmpty then [] else [expandSegment (Text.joinLines buffer)]

/-- The source with every captioned image outside fences written as a figure. -/
def expand (t : Text) : Text :=
  Text.joinLines (expandLines [] (Fence.scan (Text.lines t)))

end Figure
end Longform
