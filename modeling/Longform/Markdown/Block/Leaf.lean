import Longform.Markdown.Block.State
import Longform.Markdown.RawHtml

/-! Blocks without blocks inside: code, fences, rules, headings and raw markup. For each there is a
test whether it begins at a line, which also tells whether it interrupts the block above. -/
namespace Longform.Markdown.Block

/-- The last line, after `last`, of the code that goes on at line `n`. -/
def codeEnd (s : State) (stop : Nat) : Nat → Nat → Nat → Nat
  | 0, _, last => last
  | fuel + 1, n, last =>
    if stop ≤ n then last
    else if s.isEmpty n then codeEnd s stop fuel (n + 1) last
    else if s.isCode n then codeEnd s stop fuel (n + 1) (n + 1)
    else last

/-- Indented code. -/
def code : Rule := fun s start stop =>
  if !s.isCode start then .ok none
  else
    let last := codeEnd s stop (stop - start) (start + 1) (start + 1)
    let token := { Token.make "code_block" "code" 0 with
      content := s.linesFrom start last (4 + s.blockIndent) false ++ ['\n'], map := some (start, last) }
    .ok (some ({ s with line := last }.push token))

/-- The opening of a fence: its mark, where its text begins and ends, and where the marks end. -/
structure FenceOpening where
  mark : Char
  start : Nat
  marksEnd : Nat
  stop : Nat

def fenceAt? (s : State) (n : Nat) : Option FenceOpening :=
  let l := s.lineAt n
  let pos := l.textStart
  if s.isCode n || l.stop < pos + 3 then none
  else match s.char? pos with
    | some c =>
      if c ≠ '~' && c ≠ '\x60' then none
      else
        let marksEnd := s.runEnd (· = c) pos
        if marksEnd - pos < 3 || (c = '\x60' && c ∈ s.slice marksEnd l.stop) then none
        else some ⟨c, pos, marksEnd, l.stop⟩
    | none => none

/-- Whether a line closes a fence. -/
def closesFence (s : State) (o : FenceOpening) (n : Nat) : Bool :=
  let l := s.lineAt n
  let marksEnd := s.runEnd (· = o.mark) l.textStart
  !s.isCode n && o.marksEnd - o.start ≤ marksEnd - l.textStart && l.stop ≤ s.skipGaps marksEnd

/-- Where the content of a fence ends, and whether a closing line follows. -/
def fenceEnd (s : State) (o : FenceOpening) (stop : Nat) : Nat → Nat → Nat × Bool
  | 0, n => (n, false)
  | fuel + 1, n =>
    let l := s.lineAt n
    if stop ≤ n || (!l.isEmpty && s.isOutdented n) then (n, false)
    else match s.char? l.textStart with
      | none => (n, false)
      | some c => if c = o.mark && closesFence s o n then (n, true) else fenceEnd s o stop fuel (n + 1)

def fence : Rule := fun s start stop =>
  match fenceAt? s start with
  | none => .ok none
  | some o =>
    let (last, closed) := fenceEnd s o stop (stop - start) (start + 1)
    let after := if closed then last + 1 else last
    let token := { Token.make "fence" "code" 0 with
      info := s.slice o.marksEnd o.stop
      content := s.linesFrom (start + 1) last (s.indent start) true
      markup := s.slice o.start o.marksEnd
      map := some (start, after) }
    .ok (some ({ s with line := after }.push token))

/-- The mark of a thematic break and how often it stands there. -/
def breakAt? (s : State) (n : Nat) : Option (Char × Nat) :=
  if s.isCode n then none
  else match s.slice (s.lineAt n).textStart (max (s.lineAt n).stop ((s.lineAt n).textStart + 1)) with
    | [] => none
    | c :: r =>
      let count := (r.filter (· = c)).length + 1
      if (c = '*' || c = '-' || c = '_') && r.all (fun d => d = c || isGap d) && 3 ≤ count then
        some (c, count)
      else none

/-- A thematic break. -/
def thematicBreak : Rule := fun s start _ =>
  match breakAt? s start with
  | none => .ok none
  | some (c, count) =>
    .ok (some ({ s with line := start + 1 }.push { Token.make "hr" "hr" 0 with
      markup := List.replicate (count + 1) c, map := some (start, start + 1) }))

/-- Level and end of the marks of a heading. A line that begins where the text ends has no character
to look at. -/
def headingAt? (s : State) (n : Nat) : Except Fault (Option (Nat × Nat)) :=
  let l := s.lineAt n
  if s.isCode n then .ok none
  else match s.char? l.textStart with
    | none => .error .position
    | some c =>
      if c ≠ '#' || l.isEmpty then .ok none
      else
        let marksEnd := min (s.runEnd (· = '#') l.textStart) l.stop
        let level := marksEnd - l.textStart
        if 6 < level || (marksEnd < l.stop && !(s.char? marksEnd).any isGap) then .ok none
        else .ok (some (level, marksEnd))

/-- The text of a heading without the marks that may close it. -/
def headingText (t : Text) : Text :=
  let u := Text.dropEndWhile isGap t
  let v := Text.dropEndWhile (· = '#') u
  Text.trim (if v.getLast?.any isGap then v else u)

def headingTokens (level : Nat) (markup content : Text) (start stop textStop : Nat) : List Token :=
  let tag := "h" ++ toString level
  [{ Token.make "heading_open" tag 1 with markup := markup, map := some (start, stop) },
    inlineToken content start textStop,
    { Token.make "heading_close" tag (-1) with markup := markup }]

def heading : Rule := fun s start _ =>
  match headingAt? s start with
  | .error e => .error e
  | .ok none => .ok none
  | .ok (some (level, marksEnd)) =>
    .ok (some ({ s with line := start + 1 }.pushAll (headingTokens level (List.replicate level '#')
      (headingText (s.slice marksEnd (s.lineAt start).stop)) start (start + 1) (start + 1))))

/-- The kind of the raw markup that a line begins. -/
def rawAt? (s : State) (n : Nat) : Except Fault (Option RawHtml.Kind) :=
  if s.isCode n then .ok none
  else match s.char? (s.lineAt n).textStart with
    | none => .error .position
    | some c => .ok (if c = '<' then RawHtml.kind? (s.lineText n) else none)

/-- The line after a block of raw markup that goes on at line `n`. -/
def rawEnd (s : State) (k : RawHtml.Kind) (stop : Nat) : Nat → Nat → Nat
  | 0, n => n
  | fuel + 1, n =>
    if stop ≤ n || s.isOutdented n then n
    else
      let t := s.lineText n
      if k.endsAt t then (if t.isEmpty then n else n + 1) else rawEnd s k stop fuel (n + 1)

/-- A block of raw markup. -/
def rawBlock : Rule := fun s start stop =>
  match rawAt? s start with
  | .error e => .error e
  | .ok none => .ok none
  | .ok (some k) =>
    let last := if k.endsAt (s.lineText start) then start + 1
      else rawEnd s k stop (stop - start) (start + 1)
    .ok (some ({ s with line := last }.push { Token.make "html_block" "" 0 with
      content := s.linesFrom start last s.blockIndent true, map := some (start, last) }))

/-! Markers of list items. -/

/-- The position after the marker of a bullet item. -/
def bulletEnd? (s : State) (n : Nat) : Option Nat :=
  let l := s.lineAt n
  match s.char? l.textStart with
  | some c =>
    let after := l.textStart + 1
    if (c = '*' || c = '-' || c = '+') && (l.stop ≤ after || (s.char? after).any isGap) then some after
    else none
  | none => none

/-- The position after the marker of a numbered item: at most nine figures, and a full stop or
parenthesis. -/
def numberEnd? (s : State) (n : Nat) : Option Nat :=
  let l := s.lineAt n
  let figures := (s.lineText n).takeWhile Char.isDigit
  let mark := l.textStart + figures.length
  if figures.isEmpty || 9 < figures.length || l.stop ≤ mark then none
  else match s.char? mark with
    | some c =>
      if (c = ')' || c = '.') && (l.stop ≤ mark + 1 || (s.char? (mark + 1)).any isGap) then
        some (mark + 1)
      else none
    | none => none

/-- The number of a numbered item, or none for a bullet, with the position after the marker. -/
def marker? (s : State) (n : Nat) : Option (Option Nat × Nat) :=
  match numberEnd? s n with
  | some e => some (some (decimal (s.slice (s.lineAt n).textStart (e - 1))), e)
  | none => (bulletEnd? s n).map fun e => (none, e)

/-- Lines that are indented far beyond the list around them go on with a paragraph instead. -/
def isTooDeep (s : State) (n : Nat) : Bool :=
  0 ≤ s.listIndent && 4 ≤ s.indent n - s.listIndent && s.isOutdented n

/-- Whether a list begins at a line. One that interrupts a paragraph has to begin with number one and
may not begin with an empty item. -/
def listAt (s : State) (n : Nat) (interrupts : Bool) : Bool :=
  if s.isCode n || isTooDeep s n then false
  else
    let strict := interrupts && s.parent = .paragraph && !s.isOutdented n
    match marker? s n with
    | none => false
    | some (number, e) =>
      !(strict && number.any (· ≠ 1)) && !(strict && (s.lineAt n).stop ≤ s.skipGaps e)

def quoteAt (s : State) (n : Nat) : Bool :=
  !s.isCode n && s.char? (s.lineAt n).textStart = some '>'

/-- The end of the marks that open an aside: three or more colons. -/
def asideAt? (s : State) (n : Nat) : Option Nat :=
  let l := s.lineAt n
  let marksEnd := min (s.runEnd (· = ':') l.textStart) l.stop
  if marksEnd < l.textStart + 3 then none else some marksEnd

end Longform.Markdown.Block
