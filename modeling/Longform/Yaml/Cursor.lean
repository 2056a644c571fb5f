import Longform.Fault

/-! A place in a YAML text. Beyond the end stands a null character, which no YAML text holds. -/
namespace Longform.Yaml

/-- Why a YAML text has no value: it is malformed, or a value cannot be what it is tagged as. -/
inductive Problem
  | malformed
  | refused (cause : Fault)

structure Cursor where
  rest : Text
  index : Nat
  line : Nat
  column : Nat

def isBreak (c : Char) : Bool :=
  c = '\n' || c = '\r' || c = '\u0085' || c = '\u2028' || c = '\u2029'

/-- A break or the end. -/
def isLineEnd (c : Char) : Bool := c = '\x00' || isBreak c

/-- A space, break or the end. -/
def isSpaceOrEnd (c : Char) : Bool := c = ' ' || isLineEnd c

/-- White space or the end. -/
def isGapOrEnd (c : Char) : Bool := c = '\t' || isSpaceOrEnd c

def isGap (c : Char) : Bool := c = ' ' || c = '\t'

namespace Cursor

def ofText (t : Text) : Cursor := ⟨t, 0, 0, 0⟩

def peek (c : Cursor) : Char := c.rest.headD '\x00'

/-- The character `n` places ahead. -/
def peekAt (c : Cursor) (n : Nat) : Char := c.rest.getD n '\x00'

/-- The next place. A carriage return in front of a line feed does not end a line by itself. -/
def next (c : Cursor) : Cursor :=
  match c.rest with
  | [] => c
  | x :: r =>
    if isBreak x && !(x = '\r' && r.head? = some '\n') then ⟨r, c.index + 1, c.line + 1, 0⟩
    else ⟨r, c.index + 1, c.line, if x = '\uFEFF' then c.column else c.column + 1⟩

def forward : Nat → Cursor → Cursor
  | 0, c => c
  | n + 1, c => forward n c.next

/-- The run of characters that satisfy `p`, and the place behind it. -/
def takeWhile (p : Char → Bool) (c : Cursor) : Text × Cursor :=
  let t := c.rest.takeWhile p
  (t, c.forward t.length)

def skipWhile (p : Char → Bool) (c : Cursor) : Cursor := (c.takeWhile p).2

/-- Reads one line break, if there is one. All but the two Unicode separators become line feeds. -/
def lineBreak (c : Cursor) : Text × Cursor :=
  match c.rest with
  | '\r' :: '\n' :: _ => (['\n'], c.forward 2)
  | x :: _ =>
    if x = '\u2028' || x = '\u2029' then ([x], c.next)
    else if isBreak x then (['\n'], c.next)
    else ([], c)
  | [] => ([], c)

/-- Whether a line of three equal marks that separates documents begins here. -/
def atSeparator (c : Cursor) : Bool :=
  (c.rest.take 3 = "---".toList || c.rest.take 3 = "...".toList) && isGapOrEnd (c.peekAt 3)

/-- Skips spaces and a comment up to the end of the line; anything else is a mistake. -/
def endOfLine (c : Cursor) : Except Problem Cursor :=
  let c := c.skipWhile (· = ' ')
  let c := if c.peek = '#' then c.skipWhile fun x => !isLineEnd x else c
  if isLineEnd c.peek then .ok c.lineBreak.2 else .error .malformed

end Cursor
end Longform.Yaml
