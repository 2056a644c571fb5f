import Longform.Fence

/-! Chapters of a source text. A line `---` outside fences ends a chapter, blank chapters are
dropped, and a chapter is titled by its first heading. -/
namespace Longform

structure Chapter where
  title : Text
  source : Text
deriving DecidableEq, Repr

namespace Chapter

def separator : Text := "---".toList

/-- The text of a heading line: up to three spaces, one to six number signs, a gap, the text, and
optionally a closing run of number signs after another gap. -/
def headingText? (line : Text) : Option Text :=
  let indent := line.takeWhile (· = ' ')
  let rest := line.dropWhile (· = ' ')
  let marks := rest.takeWhile (· = '#')
  let body := rest.dropWhile (· = '#')
  if 3 < indent.length || marks.isEmpty || 6 < marks.length then none
  else match body with
    | c :: _ => if isGap c then some (Text.trim (closed body)) else none
    | [] => none
where
  isGap (c : Char) : Bool := c = ' ' || c = '\t'
  /-- A heading's text without the gaps around it and without its closing run, which a gap precedes. -/
  closed (body : Text) : Text :=
    let t := Text.dropEndWhile isGap (body.dropWhile isGap)
    let u := Text.dropEndWhile (· = '#') t
    if u.length < t.length && (u.getLast?.any isGap) then Text.dropEndWhile isGap u
    else t

/-- The title of a source: the text of the first heading outside fences. -/
def titleOf (source : Text) : Text :=
  go (Fence.scan (Text.lines source))
where
  go : List (Text × Bool) → Text
    | [] => []
    | (line, fenced) :: r =>
      if fenced then go r else match headingText? line with
        | some t => t
        | none => go r

def isSeparator (line : Text) : Bool := Text.trimEnd line = separator

/-- The groups of lines between the separators outside fences. -/
def groups : List (Text × Bool) → List (List Text)
  | [] => [[]]
  | (line, fenced) :: r =>
    if !fenced && isSeparator line then [] :: groups r
    else match groups r with
      | [] => [[line]]
      | g :: gs => (line :: g) :: gs

/-- The sources of the chapters, blank ones dropped. -/
def sources (t : Text) : List Text :=
  ((groups (Fence.scan (Text.lines t))).map Text.joinLines).filter fun s => !Text.allBlank s

def split (t : Text) : List Chapter := (sources t).map fun s => ⟨titleOf s, s⟩

/-- A chapter in its rendered form. -/
structure Rendered where
  title : Text
  html : Text
deriving DecidableEq, Repr

/-- Sources put back together with a separator line between neighbours. -/
def joinSources (ss : List Text) : Text := Text.join "\n---\n".toList ss

end Chapter
end Longform
