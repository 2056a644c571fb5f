import Longform.Address.Basic
import Longform.Markdown.Block.Table

/-! Paragraphs, underlined headings, and the definitions of labels. -/
namespace Longform.Markdown.Block

/-- The line after a paragraph that goes on at line `n`. -/
def paragraphEnd (s : State) : Nat → Nat → Except Fault Nat
  | 0, n => .ok n
  | fuel + 1, n =>
    if s.lineMax ≤ n || s.isEmpty n then .ok n
    else if 3 < s.indent n - s.blockIndent || s.indent n < 0 then paragraphEnd s fuel (n + 1)
    else match interruptsText s n s.lineMax with
      | .error e => .error e
      | .ok true => .ok n
      | .ok false => paragraphEnd s fuel (n + 1)

def paragraph : Rule := fun s start _ =>
  match paragraphEnd (s.under .paragraph) (s.lineMax - start) (start + 1) with
  | .error e => .error e
  | .ok last =>
    let content := Text.trim (s.linesFrom start last s.blockIndent false)
    .ok (some ({ s with line := last }.pushAll [
      { Token.make "paragraph_open" "p" 1 with map := some (start, last) },
      inlineToken content start last, Token.make "paragraph_close" "p" (-1)]))

/-- The mark of a line that underlines a heading. -/
def underline? (s : State) (n : Nat) : Option Char :=
  let l := s.lineAt n
  if s.isOutdented n || l.isEmpty then none
  else match s.char? l.textStart with
    | some c =>
      if (c = '-' || c = '=') && l.stop ≤ s.skipGaps (s.runEnd (· = c) l.textStart) then some c
      else none
    | none => none

/-- The line that underlines the heading that goes on at line `n`, with its mark. -/
def underlineFrom (s : State) (stop : Nat) : Nat → Nat → Except Fault (Option (Nat × Char))
  | 0, _ => .ok none
  | fuel + 1, n =>
    if stop ≤ n || s.isEmpty n then .ok none
    else if 3 < s.indent n - s.blockIndent then underlineFrom s stop fuel (n + 1)
    else match underline? s n with
      | some c => .ok (some (n, c))
      | none =>
        if s.indent n < 0 then underlineFrom s stop fuel (n + 1)
        else match interruptsText s n stop with
          | .error e => .error e
          | .ok true => .ok none
          | .ok false => underlineFrom s stop fuel (n + 1)

/-- A heading that the line below it underlines. -/
def underlined : Rule := fun s start stop =>
  if s.isCode start then .ok none
  else match underlineFrom (s.under .paragraph) stop (stop - start) (start + 1) with
    | .error e => .error e
    | .ok none => .ok none
    | .ok (some (n, c)) =>
      let content := Text.trim (s.linesFrom start n s.blockIndent false)
      .ok (some ({ s with line := n + 1 }.pushAll
        (headingTokens (if c = '=' then 1 else 2) [c] content start (n + 1) n)))

/-- A text that grows by lines: its characters so far, and the line that comes next. -/
structure Growing where
  chars : Array Char
  next : Nat

/-- The next line, unless the text ends above it. -/
def Growing.grow? (s : State) (g : Growing) : Except Fault (Option Growing) :=
  if s.lineMax ≤ g.next || s.isEmpty g.next then .ok none
  else
    let l := s.lineAt g.next
    let grown : Growing :=
      ⟨g.chars ++ s.src.extract l.textStart (min (l.stop + 1) s.src.size), g.next + 1⟩
    if s.isCode g.next || s.indent g.next < 0 then .ok (some grown)
    else match interruptsText (s.under .definition) g.next s.lineMax with
      | .error e => .error e
      | .ok true => .ok none
      | .ok false => .ok (some grown)

/-- The text with the next line, when there is one. -/
def Growing.growOrStay (s : State) (g : Growing) : Except Fault Growing :=
  (g.grow? s).map fun o => o.getD g

/-- The closing bracket of a label that goes on at `pos`. -/
def definedLabelEnd (s : State) : Nat → Growing → Nat → Except Fault (Option Nat × Growing)
  | 0, g, _ => .ok (none, g)
  | fuel + 1, g, pos =>
    match g.chars[pos]? with
    | none => .ok (none, g)
    | some '[' => .ok (none, g)
    | some ']' => .ok (some pos, g)
    | some '\n' => match g.growOrStay s with
      | .error e => .error e
      | .ok g => definedLabelEnd s fuel g (pos + 1)
    | some '\\' =>
      if g.chars[pos + 1]? = some '\n' then match g.growOrStay s with
        | .error e => .error e
        | .ok g => definedLabelEnd s fuel g (pos + 2)
      else definedLabelEnd s fuel g (pos + 2)
    | some _ => definedLabelEnd s fuel g (pos + 1)

/-- The first position from `pos` on behind gaps and line breaks. -/
def skipGrowing (s : State) : Nat → Growing → Nat → Except Fault (Nat × Growing)
  | 0, g, pos => .ok (pos, g)
  | fuel + 1, g, pos =>
    match g.chars[pos]? with
    | some '\n' => match g.growOrStay s with
      | .error e => .error e
      | .ok g => skipGrowing s fuel g (pos + 1)
    | some c => if isGap c then skipGrowing s fuel g (pos + 1) else .ok (pos, g)
    | none => .ok (pos, g)

/-- The title at a position, which may go on over several lines. Gives the position where its last
line begins, too. -/
def growingTitle (s : State) : Nat → Growing → Nat → Title → Except Fault (Title × Nat × Growing)
  | 0, g, pos, t => .ok (t, pos, g)
  | fuel + 1, g, pos, t =>
    match t with
    | .unclosed soFar mark => match g.grow? s with
      | .error e => .error e
      | .ok none => .ok (t, pos, g)
      | .ok (some g') =>
        let max := g'.chars.size
        growingTitle s fuel g' g.chars.size
          (titleFrom g'.chars g.chars.size max soFar mark (max + 1) g.chars.size)
    | _ => .ok (t, pos, g)

/-- The end of the gap at a position, if nothing but a line break follows. -/
def endsLine? (g : Growing) (pos : Nat) : Option Nat :=
  let stop := skipGap g.chars (g.chars.size - pos) pos
  match g.chars[stop]? with
  | none | some '\n' => some stop
  | _ => none
where
  skipGap (chars : Array Char) : Nat → Nat → Nat
    | 0, pos => pos
    | fuel + 1, pos => if chars[pos]?.any isGap then skipGap chars fuel (pos + 1) else pos

/-- What a definition says, and the line after it. -/
structure Defined where
  label : Text
  definition : Definition
  next : Nat

/-- The rest of a definition behind its label: destination, and a title if nothing follows it. -/
def readDefined (s : State) (fuel : Nat) (g : Growing) (labelEnd : Nat) :
    Except Fault (Option Defined) := do
  let label := labelKey (slice g.chars 1 labelEnd)
  let (pos, g) ← skipGrowing s fuel g (labelEnd + 2)
  match destination? g.chars pos g.chars.size with
  | none => .ok none
  | some d =>
    let href ← Address.written d.text
    if !Address.isAllowed href then .ok none
    else
      let (titleStart, g') ← skipGrowing s fuel g d.stop
      let (t, pos, g') ← growingTitle s fuel g' titleStart (title g'.chars titleStart g'.chars.size)
      let plain : Option (Text × Nat) := (endsLine? g d.stop).map fun _ => ([], g.next)
      let found : Option (Text × Nat) := match t with
        | .done p =>
          if pos < g'.chars.size && d.stop ≠ pos then
            match endsLine? g' p.stop with
            | some _ => some (p.text, g'.next)
            | none => if p.text.isEmpty then none else plain
          else plain
        | _ => plain
      match found with
      | none => .ok none
      | some (title, next) =>
        if label.isEmpty then .ok none else .ok (some ⟨label, ⟨href, title⟩, next⟩)

/-- The definition of a label. It leaves no token; of two definitions, the first counts. -/
def definition : Rule := fun s start _ =>
  let l := s.lineAt start
  if s.isCode start || s.char? l.textStart ≠ some '[' then .ok none
  else do
    let fuel := s.src.size + 2
    let first : Growing := ⟨s.src.extract l.textStart (min (l.stop + 1) s.src.size), start + 1⟩
    match ← definedLabelEnd s fuel first 1 with
    | (none, _) => .ok none
    | (some e, g) =>
      if g.chars[e + 1]? ≠ some ':' then .ok none
      else match ← readDefined s fuel g e with
        | none => .ok none
        | some d =>
          let definitions := if s.definitions.hasKey d.label then s.definitions
            else s.definitions ++ [(d.label, d.definition)]
          .ok (some { s with line := d.next, definitions := definitions })

end Longform.Markdown.Block
