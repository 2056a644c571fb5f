import Longform.Decimal.Read
import Longform.Text.Half
import Longform.Yaml.Cursor

/-! Scalars of a YAML text: blocks of literal or folded lines, quoted texts and plain ones. -/
namespace Longform.Yaml

/-! Blocks. -/

/-- What is done with the line breaks at the end of a block. -/
inductive Chomping
  | strip
  | clip
  | keep
deriving DecidableEq, Repr

structure Header where
  chomping : Chomping
  indent : Option Nat

def chomping? (c : Cursor) : Option Chomping :=
  if c.peek = '+' then some .keep else if c.peek = '-' then some .strip else none

/-- The indent that a header gives, if it gives one; zero is none. -/
def indent? (c : Cursor) : Except Problem (Option Nat × Cursor) :=
  if c.peek = '0' then .error .malformed
  else if c.peek.isDigit then .ok (some (c.peek.toNat - 48), c.next)
  else .ok (none, c)

/-- The marks behind the mark of a block, in either order. -/
def header (c : Cursor) : Except Problem (Header × Cursor) := do
  let (h, c) ← match chomping? c with
    | some k => do
      let (n, c) ← indent? c.next
      .ok (⟨k, n⟩, c)
    | none => do
      let (n, c) ← indent? c
      match n, chomping? c with
      | some _, some k => .ok (⟨k, n⟩, c.next)
      | _, _ => .ok (⟨.clip, n⟩, c)
  if isSpaceOrEnd c.peek then .ok (h, ← c.endOfLine) else .error .malformed

/-- The empty lines in front of a block, and the widest indent among them. -/
def leadingBreaks : Nat → Nat → Cursor → Text × Nat × Cursor
  | 0, widest, c => ([], widest, c)
  | fuel + 1, widest, c =>
    if c.peek = ' ' then leadingBreaks fuel (max widest c.next.column) c.next
    else if isBreak c.peek then
      let (b, c) := c.lineBreak
      let (bs, widest, c) := leadingBreaks fuel widest c
      (b ++ bs, widest, c)
    else ([], widest, c)

/-- Skips spaces up to a column. -/
def skipIndent (indent : Nat) : Nat → Cursor → Cursor
  | 0, c => c
  | fuel + 1, c => if c.column < indent && c.peek = ' ' then skipIndent indent fuel c.next else c

/-- The breaks of empty lines, and the place behind the indent of the next line. -/
def breaks (indent : Nat) : Nat → Cursor → Text × Cursor
  | 0, c => ([], c)
  | fuel + 1, c =>
    let c := skipIndent indent indent c
    if isBreak c.peek then
      let (b, c) := c.lineBreak
      let (bs, c) := breaks indent fuel c
      (b ++ bs, c)
    else ([], c)

/-- The lines of a block: their text, the last break, the breaks behind it. -/
structure Lines where
  text : Text
  lineBreak : Text
  after : Text

/-- What joins two lines of a block. -/
def joint (folded leadingGap : Bool) (lineBreak after : Text) (c : Cursor) : Text :=
  if folded && lineBreak = ['\n'] && !leadingGap && !isGap c.peek then
    if after.isEmpty then [' '] else []
  else lineBreak

def blockLines (folded : Bool) (indent : Nat) : Nat → Lines → Cursor → Lines × Cursor
  | 0, ls, c => (ls, c)
  | fuel + 1, ls, c =>
    if c.column = indent && c.peek ≠ '\x00' then
      let leadingGap := isGap c.peek
      let (line, c) := c.takeWhile fun x => !isLineEnd x
      let (lineBreak, c) := c.lineBreak
      let (after, c) := breaks indent (c.rest.length + 1) c
      let text := ls.text ++ ls.after ++ line
      if c.column = indent && c.peek ≠ '\x00' then
        blockLines folded indent fuel
          ⟨text ++ joint folded leadingGap lineBreak after c, lineBreak, after⟩ c
      else (⟨text, lineBreak, after⟩, c)
    else (ls, c)

/-- A block whose mark stands at the cursor; `indent` is that of the collection around it. -/
def block (folded : Bool) (indent : Int) (c : Cursor) : Except Problem (Text × Cursor) := do
  let (h, c) ← header c.next
  let least := max 1 (indent + 1).toNat
  let (before, column, c) := match h.indent with
    | none =>
      let (bs, widest, c) := leadingBreaks (c.rest.length + 1) 0 c
      (bs, max least widest, c)
    | some n =>
      let column := least + n - 1
      let (bs, c) := breaks column (c.rest.length + 1) c
      (bs, column, c)
  let (ls, c) := blockLines folded column (c.rest.length + 1) ⟨[], [], before⟩ c
  .ok (match h.chomping with
    | .strip => ls.text
    | .clip => ls.text ++ ls.lineBreak
    | .keep => ls.text ++ ls.lineBreak ++ ls.after, c)

/-! Quoted texts. -/

/-- What an escape with a single character stands for. -/
def escaped? : Char → Option Char
  | '0' => some '\x00'
  | 'a' => some '\x07'
  | 'b' => some '\x08'
  | 't' | '\t' => some '\t'
  | 'n' => some '\n'
  | 'v' => some '\x0b'
  | 'f' => some '\x0c'
  | 'r' => some '\r'
  | 'e' => some '\x1b'
  | ' ' => some ' '
  | '"' => some '"'
  | '\\' => some '\\'
  | '/' => some '/'
  | 'N' => some '\u0085'
  | '_' => some '\u00A0'
  | 'L' => some '\u2028'
  | 'P' => some '\u2029'
  | _ => none

/-- How many figures follow the mark of an escape by number. -/
def escapeWidth? : Char → Option Nat
  | 'x' => some 2
  | 'u' => some 4
  | 'U' => some 8
  | _ => none

def isHex (c : Char) : Bool := Decimal.digitValue c < 16

def hexValue (t : Text) : Nat := t.foldl (fun n c => 16 * n + Decimal.digitValue c) 0

/-- A number of exactly `width` hexadecimal figures. -/
def hexNumber? (width : Nat) (t : Text) : Option Nat :=
  let figures := t.take width
  if figures.length = width && figures.all isHex then some (hexValue figures) else none

/-- The character of an escape by number. Two escapes for the halves of a pair stay two halves. -/
def escapedNumber (n : Nat) : Except Problem Char :=
  if 0x80000000 ≤ n then .error (.refused .infinite)
  else if 0x10FFFF < n then .error (.refused .codePoint)
  else if 0xD800 ≤ n && n < 0xE000 then .ok (Text.ofHalf n)
  else .ok (Char.ofNat n)

/-- The breaks within a quoted text, with the gaps around them left out. -/
def quotedBreaks : Nat → Cursor → Except Problem (Text × Cursor)
  | 0, c => .ok ([], c)
  | fuel + 1, c =>
    if c.atSeparator then .error .malformed
    else
      let c := c.skipWhile isGap
      if isBreak c.peek then do
        let (b, c) := c.lineBreak
        let (bs, c) ← quotedBreaks fuel c
        .ok (b ++ bs, c)
      else .ok ([], c)

/-- An escape; the cursor stands behind the backslash. -/
def escape (c : Cursor) : Except Problem (Text × Cursor) :=
  match escaped? c.peek, escapeWidth? c.peek with
  | some x, _ => if c.rest.isEmpty then .error .malformed else .ok ([x], c.next)
  | none, some width =>
    match hexNumber? width c.next.rest with
    | some n => (escapedNumber n).map fun x => ([x], c.next.forward width)
    | none => .error .malformed
  | none, none =>
    if isBreak c.peek then quotedBreaks (c.rest.length + 1) c.lineBreak.2 else .error .malformed

def isPlainQuoted (c : Char) : Bool :=
  !(c = '\'' || c = '"' || c = '\\' || isGapOrEnd c)

/-- The text up to the closing quote, a gap or the end. -/
def quotedRun (double : Bool) : Nat → Cursor → Except Problem (Text × Cursor)
  | 0, c => .ok ([], c)
  | fuel + 1, c => do
    let (run, c) := c.takeWhile isPlainQuoted
    let x := c.peek
    let step : Option (Except Problem (Text × Cursor)) :=
      if !double && x = '\'' && c.peekAt 1 = '\'' then some (.ok (['\''], c.forward 2))
      else if (double && x = '\'') || (!double && (x = '"' || x = '\\')) then some (.ok ([x], c.next))
      else if double && x = '\\' then some (escape c.next)
      else none
    match step with
    | none => .ok (run, c)
    | some e =>
      let (piece, c) ← e
      let (rest, c) ← quotedRun double fuel c
      .ok (run ++ piece ++ rest, c)

/-- A gap within a quoted text. A single line break is a space. -/
def quotedGap (c : Cursor) : Except Problem (Text × Cursor) :=
  let (gap, c) := c.takeWhile isGap
  if c.rest.isEmpty then .error .malformed
  else if isBreak c.peek then do
    let (b, c) := c.lineBreak
    let (bs, c) ← quotedBreaks (c.rest.length + 1) c
    .ok ((if b ≠ ['\n'] then b else if bs.isEmpty then [' '] else []) ++ bs, c)
  else .ok (gap, c)

def quotedFrom (double : Bool) (quote : Char) : Nat → Text → Cursor → Except Problem (Text × Cursor)
  | 0, _, _ => .error .malformed
  | fuel + 1, acc, c =>
    if c.peek = quote then .ok (acc, c.next)
    else do
      let (gap, c) ← quotedGap c
      let (run, c) ← quotedRun double (c.rest.length + 1) c
      quotedFrom double quote fuel (acc ++ gap ++ run) c

/-- A quoted text whose opening quote stands at the cursor. -/
def quoted (c : Cursor) : Except Problem (Text × Cursor) := do
  let quote := c.peek
  let double := quote = '"'
  let (run, c) ← quotedRun double (c.rest.length + 1) c.next
  quotedFrom double quote (c.rest.length + 1) run c

/-! Plain texts. -/

def isFlowMark (c : Char) : Bool := c = ',' || c = '[' || c = ']' || c = '\x7b' || c = '\x7d'

/-- How many characters of a plain text follow without a gap. -/
def plainLength (inFlow : Bool) : Text → Nat
  | [] => 0
  | c :: r =>
    if isGapOrEnd c || (inFlow && (isFlowMark c || c = '?')) ||
        (c = ':' && (isGapOrEnd (r.headD '\x00') || (inFlow && isFlowMark (r.headD ' ')))) then 0
    else plainLength inFlow r + 1

/-- The breaks and indents behind a line of a plain text; none before a separator of documents. -/
def plainBreaks : Nat → Cursor → Option Text × Cursor
  | 0, c => (some [], c)
  | fuel + 1, c =>
    if c.peek = ' ' then plainBreaks fuel c.next
    else if isBreak c.peek then
      let (b, c) := c.lineBreak
      if c.atSeparator then (none, c)
      else
        let (bs, c) := plainBreaks fuel c
        (bs.map (b ++ ·), c)
    else (some [], c)

/-- A gap within a plain text and whether it holds a line break. -/
def plainGap (c : Cursor) : Text × Bool × Cursor :=
  let (gap, c) := c.takeWhile (· = ' ')
  if isBreak c.peek then
    let (b, c) := c.lineBreak
    if c.atSeparator then ([], true, c)
    else match plainBreaks (c.rest.length + 1) c with
      | (none, c) => ([], true, c)
      | (some bs, c) =>
        ((if b ≠ ['\n'] then b else if bs.isEmpty then [' '] else []) ++ bs, true, c)
  else (gap, false, c)

/-- The pieces of a plain text, each with the gap in front; tells whether a line break was met behind
the last. -/
def plainFrom (inFlow : Bool) (indent : Int) : Nat → Text → Bool → Cursor → Text × Bool × Cursor
  | 0, _, broke, c => ([], broke, c)
  | fuel + 1, gap, broke, c =>
    let n := plainLength inFlow c.rest
    if c.peek = '#' || n = 0 then ([], broke, c)
    else
      let piece := c.rest.take n
      let (next, broke, c) := plainGap (c.forward n)
      if next.isEmpty || c.peek = '#' || (!inFlow && c.column < indent) then (gap ++ piece, broke, c)
      else
        let (rest, broke, c) := plainFrom inFlow indent fuel next broke c
        (gap ++ piece ++ rest, broke, c)

/-- A plain text; `indent` is that of the collection around it. -/
def plain (inFlow : Bool) (indent : Int) (c : Cursor) : Text × Bool × Cursor :=
  plainFrom inFlow (indent + 1) (c.rest.length + 1) [] false c

end Longform.Yaml
