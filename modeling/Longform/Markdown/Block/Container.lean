import Longform.Markdown.Block.Text

/-! Blocks that hold blocks: quotes, lists and asides. `nested` reads the blocks of a range of lines. -/
namespace Longform.Markdown.Block

/-- Reads the blocks from one line up to another. -/
abbrev Nested := State → Nat → Nat → Except Fault State

/-! Quotes. -/

/-- The width of the gap from `pos` to `stop`, tabs counted from `width` on, and where it ends. -/
def gapWidth (s : State) (taken : Int) (stop : Nat) : Nat → Nat → Int → Nat × Int
  | 0, pos, width => (pos, width)
  | fuel + 1, pos, width =>
    if stop ≤ pos then (pos, width)
    else match s.char? pos with
      | some '\t' => gapWidth s taken stop fuel (pos + 1) (width + (4 - (width + taken) % 4))
      | some ' ' => gapWidth s taken stop fuel (pos + 1) (width + 1)
      | _ => (pos, width)

/-- A line behind its quote mark and one optional space. Of a tab only one column is taken. -/
def unquote (s : State) (l : Line) : Line :=
  let pos := l.textStart + 1
  let width := l.indent + 1
  let (start, first, tabWidth, spaced) : Nat × Int × Int × Bool := match s.char? pos with
    | some ' ' => (pos + 1, width + 1, 0, true)
    | some '\t' =>
      if (l.taken + width) % 4 = 3 then (pos + 1, width + 1, 0, true) else (pos, width, 1, true)
    | _ => (pos, width, 0, false)
  let (textStart, reached) := gapWidth s (l.taken + tabWidth) l.stop (l.stop - start) start first
  ⟨start, l.stop, textStart - start, reached - first, l.indent + 1 + (if spaced then 1 else 0)⟩

/-- Shifts the lines of a quote from line `n` on. `lastEmpty` tells whether nothing followed the mark
on the line above. Gives the state and the line after the quote. -/
def quoteFrom (stop : Nat) : Nat → Nat → Bool → State → Except Fault (State × Nat)
  | 0, n, _, s => .ok (s, n)
  | fuel + 1, n, lastEmpty, s =>
    let l := s.lineAt n
    if stop ≤ n || l.isEmpty then .ok (s, n)
    else if s.char? l.textStart = some '>' && !s.isOutdented n then
      let l' := unquote s l
      quoteFrom stop fuel (n + 1) l'.isEmpty (s.setLine n l')
    else if lastEmpty then .ok (s, n)
    else match interruptsQuote s n with
      | .error e => .error e
      | .ok true =>
        let s := { s with lineMax := n }
        .ok (if s.blockIndent = 0 then s
          else s.setLine n { l with indent := l.indent - s.blockIndent }, n)
      | .ok false => quoteFrom stop fuel (n + 1) false (s.setLine n { l with indent := -1 })

/-- Lines of one state put back into another, from line `n` on. -/
def restoreLines (old : Array Line) (start stop : Nat) (s : State) : State :=
  (List.range (stop - start)).foldl
    (fun s i => s.setLine (start + i) (old.getD (start + i) default)) s

/-- The state in which the blocks of a quote are read, its lines shifted already. -/
def enterQuote (s : State) : State :=
  { s with blockIndent := 0 }.push
    { Token.make "blockquote_open" "blockquote" 1 with markup := ['>'] }

/-- The state behind a quote that was met in `s`. -/
def leaveQuote (s : State) (start last : Nat) (after : State) : State :=
  let after := after.push { Token.make "blockquote_close" "blockquote" (-1) with markup := ['>'] }
  let after := after.setMap s.tokens.size start after.line
  restoreLines s.lines start (last + 1)
    { after with lineMax := s.lineMax, blockIndent := s.blockIndent, parent := s.parent }

def quote (nested : Nested) : Rule := fun s start stop =>
  if !quoteAt s start then .ok none
  else
    let first := unquote s (s.lineAt start)
    let inside := (s.under .quote).setLine start first
    match quoteFrom stop (stop - start) (start + 1) first.isEmpty inside with
    | .error e => .error e
    | .ok (inside, last) =>
      match nested (enterQuote inside) start last with
      | .error e => .error e
      | .ok after => .ok (some (leaveQuote s start last after))

/-! Lists. -/

/-- Hides the paragraphs directly inside the items of a list whose tokens begin at `first`. -/
def hideParagraphs (level : Int) (first : Nat) (s : State) : State :=
  { s with tokens := go (s.tokens.size - first) (first + 2) s.tokens }
where
  hide (i : Nat) (ts : Array Token) : Array Token := ts.modify i fun t => { t with hidden := true }
  go : Nat → Nat → Array Token → Array Token
    | 0, _, ts => ts
    | fuel + 1, i, ts =>
      if ts.size ≤ i + 2 then ts
      else
        let t := ts.getD i default
        if t.level = level && t.kind = "paragraph_open" then
          go fuel (i + 3) (hide (i + 2) (hide i ts))
        else go fuel (i + 1) ts

structure ListReading where
  state : State
  /-- Whether no item has an empty line before its end. -/
  tight : Bool
  /-- Whether the item above ended with an empty line. -/
  emptyEnd : Bool

/-- The state in which the blocks of an item are read: its first line is `l`, and its lines have an
indent. -/
def enterItem (s : State) (opening : Token) (start : Nat) (l : Line) (indent : Int) : State :=
  { s.push opening with
    listIndent := s.blockIndent, blockIndent := indent, tight := true }.setLine start l

/-- The state behind an item that was met in `s`. -/
def leaveItem (s : State) (mark : Char) (start : Nat) (after : State) : State :=
  let l := s.lineAt start
  let now := after.lineAt start
  let after := { after with
    blockIndent := s.blockIndent, listIndent := s.listIndent, tight := s.tight }
  let after := after.setLine start { now with shift := l.shift, indent := l.indent }
  let after := after.push { Token.make "list_item_close" "li" (-1) with markup := [mark] }
  after.setMap s.tokens.size start after.line

/-- Reads the blocks of an item. None are there when nothing follows the marker on its line and the line
below is empty. -/
def itemBlocks (nested : Nested) (start stop : Nat) (isBare : Bool) (inside : State) :
    Except Fault State :=
  if isBare && inside.isEmpty (start + 1) then .ok (inside.goTo (min (start + 2) stop))
  else nested inside start stop

/-- Reads the item whose marker ends at `markerEnd`. -/
def readItem (nested : Nested) (ordered : Bool) (mark : Char) (start stop markerEnd : Nat)
    (r : ListReading) : Except Fault ListReading :=
  let s := r.state
  let l := s.lineAt start
  let initial := l.indent + ((markerEnd : Int) - l.textStart)
  let (contentStart, width) := gapWidth s l.taken l.stop (l.stop - markerEnd) markerEnd initial
  let gap := if l.stop ≤ contentStart then 1 else width - initial
  let indent := initial + (if 4 < gap then 1 else gap)
  let opening := { Token.make "list_item_open" "li" 1 with
    markup := [mark], info := if ordered then s.slice l.textStart (markerEnd - 1) else [] }
  let inside :=
    enterItem s opening start { l with shift := contentStart - l.start, indent := width } indent
  match itemBlocks nested start stop (l.stop ≤ contentStart) inside with
  | .error e => .error e
  | .ok after =>
    let emptyEnd := 1 < after.line - start && after.isEmpty (after.line - 1)
    .ok ⟨leaveItem s mark start after, r.tight && after.tight && !r.emptyEnd, emptyEnd⟩

/-- The end of the marker if a line holds one more item of the same list. -/
def nextMarker? (s : State) (ordered : Bool) (mark : Char) (n : Nat) : Option Nat :=
  if s.isOutdented n || s.isCode n || interruptsList s n then none
  else match if ordered then numberEnd? s n else bulletEnd? s n with
    | some e => if s.char? (e - 1) = some mark then some e else none
    | none => none

def itemsFrom (nested : Nested) (ordered : Bool) (mark : Char) (stop : Nat) :
    Nat → Nat → Nat → ListReading → Except Fault ListReading
  | 0, _, _, r => .ok r
  | fuel + 1, start, markerEnd, r =>
    match readItem nested ordered mark start stop markerEnd r with
    | .error e => .error e
    | .ok r =>
      let n := r.state.line
      if stop ≤ n then .ok r
      else match nextMarker? r.state ordered mark n with
        | some e => itemsFrom nested ordered mark stop fuel n e r
        | none => .ok r

/-- Kind and tag of a list. -/
def listNames (ordered : Bool) : String × String :=
  if ordered then ("ordered_list", "ol") else ("bullet_list", "ul")

/-- The opening of a list; one that counts from anything but one says so. -/
def listOpening (number : Option Nat) (mark : Char) : Token :=
  let (kind, tag) := listNames number.isSome
  let opening := { Token.make (kind ++ "_open") tag 1 with markup := [mark] }
  match number with
  | some n => if n = 1 then opening else opening.setAttr "start" (.int n)
  | none => opening

def listClosing (ordered : Bool) (mark : Char) : Token :=
  let (kind, tag) := listNames ordered
  { Token.make (kind ++ "_close") tag (-1) with markup := [mark] }

/-- The state behind a list that was met in `s`. -/
def leaveList (s : State) (closing : Token) (start : Nat) (r : ListReading) : State :=
  let after := r.state.push closing
  let after := (after.setMap s.tokens.size start after.line).under s.parent
  if r.tight then hideParagraphs (after.level + 2) s.tokens.size after else after

def list (nested : Nested) : Rule := fun s start stop =>
  if !listAt s start false then .ok none
  else match marker? s start with
    | none => .ok none
    | some (number, markerEnd) =>
      let ordered := number.isSome
      let mark := (s.char? (markerEnd - 1)).getD ' '
      match itemsFrom nested ordered mark stop (stop - start + 1) start markerEnd
          ⟨(s.under .list).push (listOpening number mark), true, false⟩ with
      | .error e => .error e
      | .ok r => .ok (some (leaveList s (listClosing ordered mark) start r))

/-! Asides. -/

/-- The line where an aside ends, and whether a closing line stands there. The line `stop` itself is
looked at, too. -/
def asideEnd (s : State) (marker : Text) (stop : Nat) : Nat → Nat → Nat × Bool
  | 0, n => (n, false)
  | fuel + 1, n =>
    if stop ≤ n then (n, false)
    else
      let n := n + 1
      if !s.isEmpty n && s.isOutdented n then (n, false)
      else if Text.trim (s.lineText n) = marker then (n, true)
      else asideEnd s marker stop fuel n

/-- The state in which the blocks of an aside that ends at line `last` are read. -/
def enterAside (s : State) (marker info : Text) (start last : Nat) : State :=
  ({ s with lineMax := last }.under .aside).push { Token.make "aside_open" "aside" 1 with
    markup := marker, info := info, map := some (start, last) }

/-- The state behind an aside that was met in `s`; reading goes on at line `next`. -/
def leaveAside (s : State) (marker : Text) (next : Nat) (after : State) : State :=
  { after.push { Token.make "aside_close" "aside" (-1) with markup := marker } with
    lineMax := s.lineMax, parent := s.parent, line := next }

/-- An aside between lines of colons; what follows the colons is its class. -/
def aside (nested : Nested) : Rule := fun s start stop =>
  match asideAt? s start with
  | none => .ok none
  | some marksEnd =>
    let l := s.lineAt start
    let marker := s.slice l.textStart marksEnd
    let info := Text.trim (s.slice marksEnd l.stop)
    let (last, closed) := asideEnd s marker stop (stop - start) start
    match nested (enterAside s marker info start last) (start + 1) last with
    | .error e => .error e
    | .ok after => .ok (some (leaveAside s marker (if closed then last + 1 else last) after))

end Longform.Markdown.Block
