import Longform.Fault
import Longform.Markdown.LinkParts
import Longform.Markdown.Token

/-! A reader of block structure. The source is cut into lines once; containers shift the beginnings
and indents of their lines while they are read and restore them afterwards. -/
namespace Longform.Markdown.Block

/-- A line: where it begins and ends, how many characters its indent has, how wide the indent is, and
how wide what containers have taken off in front of it is. -/
structure Line where
  start : Nat
  stop : Nat
  shift : Nat
  indent : Int
  taken : Int
deriving Inhabited, DecidableEq, Repr

/-- Where the text of a line begins. -/
def Line.textStart (l : Line) : Nat := l.start + l.shift

def Line.isEmpty (l : Line) : Bool := l.stop ≤ l.textStart

/-- What lines are read as part of: the whole text, or the block around them. -/
inductive Parent
  | root
  | quote
  | list
  | paragraph
  | definition
  | table
  | aside
deriving DecidableEq, Repr

structure State where
  src : Array Char
  /-- The lines, with an empty one at the end. -/
  lines : Array Line
  line : Nat
  lineMax : Nat
  /-- The indent that the lines of the present block have at least. -/
  blockIndent : Int
  /-- The indent of the list around the present one, negative outside lists. -/
  listIndent : Int
  parent : Parent
  tight : Bool
  level : Nat
  tokens : Array Token
  definitions : Dictionary Definition

/-- Reads lines: `start` is where the present one begins, `inIndent` whether only blanks were seen. -/
def cutLines : List Char → Nat → Nat → Bool → Nat → Nat → List Line
  | [], _, _, _, _, _ => []
  | c :: r, pos, start, inIndent, shift, width =>
    if inIndent && (c = ' ' || c = '\t') then
      cutLines r (pos + 1) start true (shift + 1) (width + (if c = '\t' then 4 - width % 4 else 1))
    else if c = '\n' then
      ⟨start, pos, shift, width, 0⟩ :: cutLines r (pos + 1) (pos + 1) true 0 0
    else if r.isEmpty then [⟨start, pos + 1, shift, width, 0⟩]
    else cutLines r (pos + 1) start false shift width

def State.ofText (t : Text) : State :=
  let lines := (cutLines t 0 0 true 0 0).toArray
  ⟨t.toArray, lines.push ⟨t.length, t.length, 0, 0, 0⟩, 0, lines.size, 0, -1, .root, false, 0, #[], []⟩

namespace State

/-- The state with its lines read as part of `p`. -/
def under (s : State) (p : Parent) : State := { s with parent := p }

/-- The state with line `n` as the next to be read. -/
def goTo (s : State) (n : Nat) : State := { s with line := n }

def setTight (s : State) (tight : Bool) : State := { s with tight := tight }

def lineAt (s : State) (n : Nat) : Line := s.lines.getD n default

def isEmpty (s : State) (n : Nat) : Bool := (s.lineAt n).isEmpty

def indent (s : State) (n : Nat) : Int := (s.lineAt n).indent

/-- Lines indented by four or more hold code. -/
def isCode (s : State) (n : Nat) : Bool := 4 ≤ s.indent n - s.blockIndent

/-- Lines that are indented less than their block. -/
def isOutdented (s : State) (n : Nat) : Bool := s.indent n < s.blockIndent

def char? (s : State) (pos : Nat) : Option Char := s.src[pos]?

def slice (s : State) (start stop : Nat) : Text := Markdown.slice s.src start stop

/-- The text of a line without its indent. -/
def lineText (s : State) (n : Nat) : Text := s.slice (s.lineAt n).textStart (s.lineAt n).stop

/-- The first line from `n` on that is not empty. -/
def skipEmpty (s : State) : Nat → Nat → Nat
  | 0, n => n
  | fuel + 1, n => if n < s.lineMax && s.isEmpty n then skipEmpty s fuel (n + 1) else n

/-- The first position from `pos` on whose character does not satisfy `p`. -/
def skipWhile (s : State) (p : Char → Bool) : Nat → Nat → Nat
  | 0, pos => pos
  | fuel + 1, pos => if (s.char? pos).any p then skipWhile s p fuel (pos + 1) else pos

def runEnd (s : State) (p : Char → Bool) (pos : Nat) : Nat := s.skipWhile p (s.src.size - pos) pos

def skipGaps (s : State) (pos : Nat) : Nat := s.runEnd isGap pos

/-- Adds a block token; openings raise the level and closings lower it. -/
def push (s : State) (t : Token) : State :=
  let level := if t.nesting < 0 then s.level - 1 else s.level
  { s with
    level := if 0 < t.nesting then level + 1 else level
    tokens := s.tokens.push { t with block := true, level := level } }

def pushAll (s : State) (ts : List Token) : State := ts.foldl push s

def setMap (s : State) (token : Nat) (start stop : Nat) : State :=
  { s with tokens := s.tokens.modify token fun t => { t with map := some (start, stop) } }

def setLine (s : State) (n : Nat) (l : Line) : State := { s with lines := s.lines.set! n l }

/-- Takes an indent off the beginning of a line, from `pos` on with `width` already taken; gives the
position after it and the width of a tab that was only partly taken. -/
def takeIndent (s : State) (l : Line) (indent : Int) (stop : Nat) : Nat → Nat → Int → Nat × Int
  | 0, pos, width => (pos, width)
  | fuel + 1, pos, width =>
    if stop ≤ pos || indent ≤ width then (pos, width)
    else match s.char? pos with
      | some '\t' => takeIndent s l indent stop fuel (pos + 1) (width + (4 - (width + l.taken) % 4))
      | some ' ' => takeIndent s l indent stop fuel (pos + 1) (width + 1)
      | some _ =>
        if pos - l.start < l.shift then takeIndent s l indent stop fuel (pos + 1) (width + 1)
        else (pos, width)
      | none => (pos, width)

/-- A line without an indent, with the line break behind it if asked for. -/
def lineFrom (s : State) (n : Nat) (indent : Int) (lineBreak : Bool) : Text :=
  let l := s.lineAt n
  let stop := if lineBreak then l.stop + 1 else l.stop
  let (pos, width) := s.takeIndent l indent stop (stop - l.start) l.start 0
  List.replicate (width - indent).toNat ' ' ++ s.slice pos stop

/-- The lines from `start` up to `stop` without an indent. -/
def linesFrom (s : State) (start stop : Nat) (indent : Int) (lastBreak : Bool) : Text :=
  ((List.range (stop - start)).map fun i =>
    s.lineFrom (start + i) indent (lastBreak || start + i + 1 < stop)).flatten

end State

/-- A rule looks at a line and either declines or reads a block there. -/
abbrev Rule := State → Nat → Nat → Except Fault (Option State)

/-- The running text of a block. -/
def inlineToken (content : Text) (start stop : Nat) : Token :=
  { Token.make "inline" "" 0 with content := content, children := some [], map := some (start, stop) }

end Longform.Markdown.Block
