import Longform.Dictionary
import Longform.Markdown.Escape
import Longform.Text.Case

/-! The parts of a link: destination, title, and the labels under which definitions are found. -/
namespace Longform.Markdown

/-- A part that has been read, and the position after it. -/
structure Part where
  text : Text
  stop : Nat

/-- The characters of a range of positions. -/
def slice (src : Array Char) (start stop : Nat) : Text := (src.extract start stop).toList

/-- A destination in angle brackets: `pos` is where the search for the closing one stands. -/
def angleDestination? (src : Array Char) (start max : Nat) : Nat → Nat → Option Part
  | 0, _ => none
  | fuel + 1, pos =>
    if max ≤ pos then none
    else match src[pos]? with
      | none | some '\n' | some '<' => none
      | some '>' => some ⟨unescape (slice src (start + 1) pos), pos + 1⟩
      | some c => angleDestination? src start max fuel (if c = '\\' && pos + 1 < max then pos + 2 else pos + 1)

/-- Where a destination without brackets ends, with the number of parentheses still open; none when
they nest too deep. -/
def bareDestinationEnd? (src : Array Char) (max : Nat) : Nat → Nat → Nat → Option (Nat × Nat)
  | 0, depth, pos => some (depth, pos)
  | fuel + 1, depth, pos =>
    if max ≤ pos then some (depth, pos)
    else match src[pos]? with
      | none => some (depth, pos)
      | some c =>
        if c.toNat ≤ 32 || c.toNat = 127 then some (depth, pos)
        else if c = '\\' && pos + 1 < max then
          if src[pos + 1]? = some ' ' then some (depth, pos)
          else bareDestinationEnd? src max fuel depth (pos + 2)
        else if c = '(' then
          if 32 ≤ depth then none else bareDestinationEnd? src max fuel (depth + 1) (pos + 1)
        else if c = ')' then
          if depth = 0 then some (depth, pos)
          else bareDestinationEnd? src max fuel (depth - 1) (pos + 1)
        else bareDestinationEnd? src max fuel depth (pos + 1)

/-- The destination at a position. -/
def destination? (src : Array Char) (pos max : Nat) : Option Part :=
  if src[pos]? = some '<' then angleDestination? src pos max (max + 1) (pos + 1)
  else match bareDestinationEnd? src max (max + 1) 0 pos with
    | some (0, stop) => if stop = pos then none else some ⟨unescape (slice src pos stop), stop⟩
    | _ => none

/-- A title that is being read. It may go on with the next line when its closing mark is missing. -/
inductive Title
  | absent
  | done (part : Part)
  | unclosed (soFar : Text) (mark : Char)

/-- Reads a title up to its closing mark; `start` is where its text begins. -/
def titleFrom (src : Array Char) (start max : Nat) (soFar : Text) (mark : Char) : Nat → Nat → Title
  | 0, pos => .unclosed (soFar ++ unescape (slice src start pos)) mark
  | fuel + 1, pos =>
    if max ≤ pos then .unclosed (soFar ++ unescape (slice src start pos)) mark
    else
      let c := src.getD pos ' '
      if c = mark then .done ⟨soFar ++ unescape (slice src start pos), pos + 1⟩
      else if c = '(' && mark = ')' then .absent
      else titleFrom src start max soFar mark fuel
        (if c = '\\' && pos + 1 < max then pos + 2 else pos + 1)

/-- The title at a position: in double or single quotes, or in parentheses. -/
def title (src : Array Char) (pos max : Nat) : Title :=
  if max ≤ pos then .absent
  else match src[pos]? with
    | some '"' => titleFrom src (pos + 1) max [] '"' (max + 1) (pos + 1)
    | some '\'' => titleFrom src (pos + 1) max [] '\'' (max + 1) (pos + 1)
    | some '(' => titleFrom src (pos + 1) max [] ')' (max + 1) (pos + 1)
    | _ => .absent

/-- A title in a text that has no further lines. -/
def title? (src : Array Char) (pos max : Nat) : Option Part :=
  match title src pos max with
  | .done p => some p
  | _ => none

/-- Runs of blanks as one space. -/
def collapseBlanks : Text → Text
  | [] => []
  | [c] => [if Text.isBlank c then ' ' else c]
  | c :: d :: r =>
    if Text.isBlank c then
      if Text.isBlank d then collapseBlanks (d :: r) else ' ' :: collapseBlanks (d :: r)
    else c :: collapseBlanks (d :: r)

/-- The key of a label: letter variants and runs of blanks make no difference. -/
def labelKey (t : Text) : Text := Text.upper (Text.lower (collapseBlanks (Text.trim t)))

/-- What a label is defined to link to. -/
structure Definition where
  href : Text
  title : Text
deriving DecidableEq, Repr

end Longform.Markdown
