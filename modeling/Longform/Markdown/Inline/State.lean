import Longform.Fault
import Longform.Markdown.LinkParts
import Longform.Markdown.Token

/-! A reader of running text: what has been read, the tokens made, and the delimiters that may still
become emphasis. Every element that is opened gets a delimiter list of its own. -/
namespace Longform.Markdown.Inline

/-- A mark that may open or close emphasis; `stop` is the position of the delimiter that closes it. -/
structure Delimiter where
  mark : Char
  length : Nat
  token : Nat
  stop : Option Nat
  canOpen : Bool
  canClose : Bool
deriving Inhabited

/-- What holds for a whole document: the definitions of labels, if there are any, and the prefix
for searches. -/
structure Context where
  definitions : Dictionary Definition
  searchPrefix : Option Text

structure State where
  src : Array Char
  pos : Nat
  max : Nat
  level : Nat
  pending : Text
  pendingLevel : Nat
  tokens : Array Token
  /-- All delimiter lists, in order of the elements they belong to. -/
  lists : Array (Array Delimiter)
  current : Nat
  enclosing : List Nat
  /-- Where the token at a position ends, for the positions that were skipped over. -/
  skipped : Array (Option Nat)
  /-- The last run of backticks of each length, valid once all have been seen. -/
  backticks : List (Nat × Nat)
  backticksSeen : Bool
  /-- How many links enclose the position. -/
  links : Int
  /-- What has gone wrong on the way, whether a rule read something there or only tried to. -/
  fault : Option Fault

def State.ofText (t : Text) : State :=
  let src := t.toArray
  ⟨src, 0, src.size, 0, [], 0, #[], #[#[]], 0, [], Array.replicate (src.size + 2) none, [], false, 0, none⟩

namespace State

def char? (s : State) : Option Char := s.src[s.pos]?

/-- Turns the pending text into a token. -/
def flush (s : State) : State :=
  if s.pending.isEmpty then s
  else { s with
    tokens := s.tokens.push { Token.ofText s.pending with level := s.pendingLevel }
    pending := [] }

/-- Adds a token; openings raise the level and begin a delimiter list, closings undo both. -/
def push (s : State) (t : Token) : State :=
  let s := s.flush
  let s := if t.nesting < 0 then
      { s with level := s.level - 1, current := s.enclosing.headD 0, enclosing := s.enclosing.tail }
    else s
  let s' := if 0 < t.nesting then
      { s with level := s.level + 1, enclosing := s.current :: s.enclosing,
               current := s.lists.size, lists := s.lists.push #[] }
    else s
  { s' with pendingLevel := s'.level, tokens := s.tokens.push { t with level := s.level } }

/-- Adds the tokens of an element from left to right. -/
def pushAll (s : State) (ts : List Token) : State := ts.foldl push s

def addDelimiter (s : State) (d : Delimiter) : State :=
  { s with lists := s.lists.modify s.current (·.push d) }

def write (s : State) (t : Text) : State := { s with pending := s.pending ++ t }

def fail (s : State) (e : Fault) : State := { s with fault := s.fault.or (some e) }

/-- The text from a position to another. -/
def slice (s : State) (start stop : Nat) : Text := Markdown.slice s.src start stop

/-- The text from a position on. -/
def rest (s : State) : Text := s.slice s.pos s.src.size

end State

/-- The first position from `pos` on, below `max`, that does not satisfy `p`. -/
def skipWhile (src : Array Char) (p : Char → Bool) (max : Nat) : Nat → Nat → Nat
  | 0, pos => pos
  | fuel + 1, pos =>
    if pos < max && src[pos]?.any p then skipWhile src p max fuel (pos + 1) else pos

/-- The position after the run of `p` that begins at `pos`. -/
def State.runEnd (s : State) (p : Char → Bool) (pos : Nat) : Nat :=
  skipWhile s.src p s.max (s.max - pos) pos

def State.skipGaps (s : State) (pos : Nat) : Nat := s.runEnd isGap pos
def State.skipGapsAndBreaks (s : State) (pos : Nat) : Nat :=
  s.runEnd (fun c => isGap c || c = '\n') pos

/-- How a run of marks stands between its neighbours. -/
structure Flanks where
  canOpen : Bool
  canClose : Bool
  length : Nat

/-- The run of equal marks at the position. Beginning and end of the text count as white space. -/
def State.flanks (s : State) (splitsWords : Bool) : Flanks :=
  let mark := s.src.getD s.pos ' '
  let last := if s.pos = 0 then ' ' else s.src.getD (s.pos - 1) ' '
  let stop := s.runEnd (· = mark) s.pos
  let next := if stop < s.max then s.src.getD stop ' ' else ' '
  let leftFlanking := !(isWhite next || (Text.isMark next && !(isWhite last || Text.isMark last)))
  let rightFlanking := !(isWhite last || (Text.isMark last && !(isWhite next || Text.isMark next)))
  ⟨leftFlanking && (splitsWords || !rightFlanking || Text.isMark last),
    rightFlanking && (splitsWords || !leftFlanking || Text.isMark next), stop - s.pos⟩

end Longform.Markdown.Inline
