import Longform.Yaml.Scalar

/-! Tokens of a YAML text. Indentation becomes the beginnings and ends of blocks, and a colon shows
that what stands in front of it on its line was a key. -/
namespace Longform.Yaml

inductive Token
  | version (major : Nat)
  | handle (name : Text) (expansion : Text)
  | directive
  | documentStart
  | documentEnd
  | streamEnd
  | blockSequence
  | blockMapping
  | blockEnd
  | sequenceStart
  | sequenceEnd
  | mappingStart
  | mappingEnd
  | entry
  | separator
  | key
  | value
  | alias (name : Text)
  | anchor (name : Text)
  | tag (handle : Option Text) (suffix : Text)
  | scalar (content : Text) (isPlain : Bool)
deriving DecidableEq, Repr

/-- Where a key may have begun. It has to end on the same line, within 1024 characters. -/
structure Candidate where
  token : Nat
  required : Bool
  index : Nat
  line : Nat
  column : Nat

structure Scanner where
  cursor : Cursor
  tokens : Array Token
  /-- How many brackets and braces are open. -/
  depth : Nat
  indent : Int
  indents : List Int
  keyAllowed : Bool
  /-- The candidates, by the number of open brackets around them. -/
  candidates : List (Nat × Candidate)

namespace Scanner

def ofText (t : Text) : Scanner := ⟨.ofText t, #[], 0, -1, [], true, []⟩

def push (t : Token) (s : Scanner) : Scanner := { s with tokens := s.tokens.push t }

def insert (i : Nat) (t : Token) (s : Scanner) : Scanner :=
  { s with tokens := (s.tokens.extract 0 i).push t ++ s.tokens.extract i s.tokens.size }

def column (s : Scanner) : Int := s.cursor.column

/-- Closes the blocks that are indented further than a column. -/
def unwindFrom : List Int → Int → Scanner → Scanner
  | [], _, s => s
  | outer :: r, column, s =>
    if column < s.indent then
      unwindFrom r column ({ s with indent := outer, indents := r }.push .blockEnd)
    else s

def unwind (column : Int) (s : Scanner) : Scanner :=
  if s.depth ≠ 0 then s else unwindFrom s.indents column s

/-- Begins a block at a column, if that is further in; `t` goes to the place `i`. -/
def beginBlock (column : Int) (i : Nat) (t : Token) (s : Scanner) : Scanner :=
  if s.indent < column then
    { s.insert i t with indents := s.indent :: s.indents, indent := column }
  else s

/-- Gives up candidates that have ended without a colon; one that has to be a key may not. -/
def dropStale (s : Scanner) : Except Problem Scanner :=
  let isStale (k : Candidate) : Bool :=
    k.line ≠ s.cursor.line || 1024 < s.cursor.index - k.index
  if s.candidates.any fun (_, k) => isStale k && k.required then .error .malformed
  else .ok { s with candidates := s.candidates.filter fun (_, k) => !isStale k }

/-- Gives up the candidate at the present depth. -/
def dropCandidate (s : Scanner) : Except Problem Scanner :=
  match s.candidates.lookup s.depth with
  | none => .ok s
  | some k =>
    if k.required then .error .malformed
    else .ok { s with candidates := s.candidates.filter fun (d, _) => d ≠ s.depth }

/-- Notes that the next token may begin a key. -/
def saveCandidate (s : Scanner) : Except Problem Scanner :=
  if !s.keyAllowed then .ok s
  else do
    let required := s.depth = 0 && s.indent = s.column
    let s ← s.dropCandidate
    let k : Candidate := ⟨s.tokens.size, required, s.cursor.index, s.cursor.line, s.cursor.column⟩
    .ok { s with candidates := (s.depth, k) :: s.candidates }

/-- Skips spaces, comments and line breaks. Behind a break of a block a key may begin. -/
def skipGaps : Nat → Scanner → Scanner
  | 0, s => s
  | fuel + 1, s =>
    let c := s.cursor.skipWhile (· = ' ')
    let c := if c.peek = '#' then c.skipWhile fun x => !isLineEnd x else c
    if isBreak c.peek then
      skipGaps fuel { s with cursor := c.lineBreak.2, keyAllowed := s.keyAllowed || s.depth = 0 }
    else { s with cursor := c }

def isNameChar (c : Char) : Bool := c.isAlphanum || c = '-' || c = '_'

def isAddressChar (c : Char) : Bool := c.isAlphanum || c ∈ "-;/?:@&=+$,_.!~*'()[]".toList

/-- The bytes of a run of escapes. -/
def escapedBytes : Text → Option (List UInt8 × Text)
  | '%' :: a :: b :: r =>
    if isHex a && isHex b then
      (escapedBytes r).map fun (bs, s) => (UInt8.ofNat (hexValue [a, b]) :: bs, s)
    else none
  | '%' :: _ => none
  | r => some ([], r)

/-- A tag or the expansion of a handle, with its escapes decoded. -/
def address : Nat → Text → Cursor → Except Problem (Text × Cursor)
  | 0, acc, c => .ok (acc, c)
  | fuel + 1, acc, c =>
    let (run, c) := c.takeWhile isAddressChar
    if c.peek = '%' then
      match escapedBytes c.rest with
      | none => .error .malformed
      | some (bs, rest) => match String.fromUTF8? (ByteArray.mk bs.toArray) with
        | none => .error .malformed
        | some s => address fuel (acc ++ run ++ s.toList) (c.forward (c.rest.length - rest.length))
    else if (acc ++ run).isEmpty then .error .malformed
    else .ok (acc ++ run, c)

/-- A handle between exclamation marks; a single mark is one, too. -/
def tagHandle (c : Cursor) : Except Problem (Text × Cursor) :=
  if c.peek ≠ '!' then .error .malformed
  else if c.peekAt 1 = ' ' then .ok (['!'], c.next)
  else
    let (name, c) := c.next.takeWhile isNameChar
    if c.peek = '!' then .ok ('!' :: name ++ ['!'], c.next) else .error .malformed

def versionNumber (c : Cursor) : Except Problem (Nat × Cursor) :=
  let (figures, c) := c.takeWhile Char.isDigit
  if figures.isEmpty then .error .malformed
  else match Decimal.integer? 10 figures with
    | .ok n => .ok (n.toNat, c)
    | .error e => .error (.refused e)

def spaces (c : Cursor) : Cursor := c.skipWhile (· = ' ')

/-- A line that begins with a percent sign. -/
def directiveToken (c : Cursor) : Except Problem (Token × Cursor) := do
  let (name, c) := c.next.takeWhile isNameChar
  if name.isEmpty || !isSpaceOrEnd c.peek then .error .malformed
  let (t, c) ← if name = "YAML".toList then do
      let (major, c) ← versionNumber (spaces c)
      if c.peek ≠ '.' then .error .malformed
      let (_, c) ← versionNumber c.next
      if !isSpaceOrEnd c.peek then .error .malformed
      .ok (Token.version major, c)
    else if name = "TAG".toList then do
      let (name, c) ← tagHandle (spaces c)
      if c.peek ≠ ' ' then .error .malformed
      let (expansion, c) ← address (c.rest.length + 1) [] (spaces c)
      if !isSpaceOrEnd c.peek then .error .malformed
      .ok (Token.handle name expansion, c)
    else .ok (Token.directive, c.skipWhile fun x => !isLineEnd x)
  .ok (t, ← c.endOfLine)

/-- The name of an anchor or alias. -/
def anchorName (c : Cursor) : Except Problem (Text × Cursor) :=
  let (name, c) := c.next.takeWhile isNameChar
  if name.isEmpty || !(isGapOrEnd c.peek || c.peek ∈ "?:,]\x7d%@\x60".toList) then .error .malformed
  else .ok (name, c)

/-- A tag: written out in angle brackets, alone, or behind a handle. -/
def tagToken (c : Cursor) : Except Problem (Token × Cursor) := do
  let (t, c) ← if c.peekAt 1 = '<' then do
      let (suffix, c) ← address (c.rest.length + 1) [] (c.forward 2)
      if c.peek ≠ '>' then .error .malformed
      .ok (Token.tag none suffix, c.next)
    else if isGapOrEnd (c.peekAt 1) then .ok (Token.tag none ['!'], c.next)
    else do
      let hasHandle := '!' ∈ (c.rest.drop 1).takeWhile fun x => !isSpaceOrEnd x
      let (handle, c) ← if hasHandle then tagHandle c else .ok (['!'], c.next)
      let (suffix, c) ← address (c.rest.length + 1) [] c
      .ok (Token.tag (some handle) suffix, c)
  if isSpaceOrEnd c.peek then .ok (t, c) else .error .malformed

def step (t : Token) (s : Scanner) : Scanner := { s.push t with cursor := s.cursor.next }

/-- A directive or a line that separates documents. -/
def outside (read : Cursor → Except Problem (Token × Cursor)) (s : Scanner) :
    Except Problem Scanner := do
  let s ← (s.unwind (-1)).dropCandidate
  let (t, c) ← read s.cursor
  .ok { s.push t with cursor := c, keyAllowed := false }

/-- The opening of a bracket, which may begin a key. -/
def openFlow (t : Token) (s : Scanner) : Except Problem Scanner := do
  let s ← s.saveCandidate
  .ok { s.step t with depth := s.depth + 1, keyAllowed := true }

def closeFlow (t : Token) (s : Scanner) : Except Problem Scanner := do
  let s ← s.dropCandidate
  if s.depth = 0 then .error .malformed
  .ok { s.step t with depth := s.depth - 1, keyAllowed := false }

/-- An entry of a block sequence or the mark of a key. -/
def openBlock (begins t : Token) (keyNext : Bool) (s : Scanner) : Except Problem Scanner := do
  if s.depth = 0 && !s.keyAllowed then .error .malformed
  let s := if s.depth = 0 then s.beginBlock s.column s.tokens.size begins else s
  let s ← { s with keyAllowed := keyNext }.dropCandidate
  .ok (s.step t)

/-- A colon. It makes a key of the candidate on its line. -/
def colon (s : Scanner) : Except Problem Scanner :=
  match s.candidates.lookup s.depth with
  | some k =>
    let s := { s with candidates := s.candidates.filter fun (d, _) => d ≠ s.depth, keyAllowed := false }
    let s := s.insert k.token .key
    let s := if s.depth = 0 then s.beginBlock k.column k.token .blockMapping else s
    .ok (s.step .value)
  | none => s.openBlock .blockMapping .value (s.depth = 0)

/-- A token of one piece, which may begin a key. -/
def piece (read : Cursor → Except Problem (Token × Cursor)) (s : Scanner) :
    Except Problem Scanner := do
  let s ← s.saveCandidate
  let (t, c) ← read s.cursor
  .ok { s.push t with cursor := c, keyAllowed := false }

def blockScalar (folded : Bool) (s : Scanner) : Except Problem Scanner := do
  let s ← { s with keyAllowed := true }.dropCandidate
  let (t, c) ← block folded s.indent s.cursor
  .ok { s.push (.scalar t false) with cursor := c }

def plainScalar (s : Scanner) : Except Problem Scanner := do
  let s ← s.saveCandidate
  let (t, broke, c) := plain (s.depth ≠ 0) s.indent s.cursor
  .ok { s.push (.scalar t true) with cursor := c, keyAllowed := broke }

/-- Whether a plain text may begin here. -/
def beginsPlain (s : Scanner) : Bool :=
  let x := s.cursor.peek
  !(isGapOrEnd x || x ∈ "-?:,[]\x7b\x7d#&*!|>'\"%@\x60".toList) ||
    (!isGapOrEnd (s.cursor.peekAt 1) && (x = '-' || (s.depth = 0 && (x = '?' || x = ':'))))

/-- Reads the token at the cursor, which is not the end. -/
def read (s : Scanner) : Except Problem Scanner :=
  let c := s.cursor
  let x := c.peek
  let gapNext := isGapOrEnd (c.peekAt 1)
  let marks (t : Token) : Scanner → Except Problem Scanner :=
    outside fun c => .ok (t, c.forward 3)
  if x = '%' && c.column = 0 then s.outside directiveToken
  else if x = '-' && c.column = 0 && c.atSeparator then marks .documentStart s
  else if x = '.' && c.column = 0 && c.atSeparator then marks .documentEnd s
  else if x = '[' then s.openFlow .sequenceStart
  else if x = '\x7b' then s.openFlow .mappingStart
  else if x = ']' then s.closeFlow .sequenceEnd
  else if x = '\x7d' then s.closeFlow .mappingEnd
  else if x = ',' then (do
    let s ← { s with keyAllowed := true }.dropCandidate
    .ok (s.step .separator))
  else if x = '-' && gapNext then s.openBlock .blockSequence .entry true
  else if x = '?' && (s.depth ≠ 0 || gapNext) then s.openBlock .blockMapping .key (s.depth = 0)
  else if x = ':' && (s.depth ≠ 0 || gapNext) then s.colon
  else if x = '*' then s.piece fun c => (anchorName c).map fun (n, c) => (.alias n, c)
  else if x = '&' then s.piece fun c => (anchorName c).map fun (n, c) => (.anchor n, c)
  else if x = '!' then s.piece tagToken
  else if x = '|' && s.depth = 0 then s.blockScalar false
  else if x = '>' && s.depth = 0 then s.blockScalar true
  else if x = '\'' || x = '"' then s.piece fun c => (quoted c).map fun (t, c) => (.scalar t false, c)
  else if s.beginsPlain then s.plainScalar
  else .error .malformed

/-- Reads all tokens. What was read before a problem is kept. -/
def readAll : Nat → Scanner → List Token × Option Problem
  | 0, s => (s.tokens.toList, some .malformed)
  | fuel + 1, s =>
    let s := s.skipGaps (s.cursor.rest.length + 1)
    match s.dropStale with
    | .error e => (s.tokens.toList, some e)
    | .ok s =>
      let s := s.unwind s.column
      if s.cursor.rest.isEmpty then
        match (s.unwind (-1)).dropCandidate with
        | .error e => (s.tokens.toList, some e)
        | .ok s => ((s.push .streamEnd).tokens.toList, none)
      else match s.read with
        | .error e => (s.tokens.toList, some e)
        | .ok s => readAll fuel s

end Scanner

/-- Characters that a YAML text may hold. -/
def isPrintable (c : Char) : Bool :=
  let n := c.toNat
  n = 9 || n = 10 || n = 13 || (32 ≤ n && n ≤ 126) || n = 0x85 || (0xA0 ≤ n && n ≤ 0xFFFD) ||
    (0x10000 ≤ n && !Text.isHalf c)

/-- The tokens of a text, with the problem that ends them early. -/
def tokens (t : Text) : List Token × Option Problem :=
  if t.all isPrintable then
    let t := if t.head? = some '\uFEFF' then t.tail else t
    Scanner.readAll (t.length + 2) (.ofText t)
  else ([], some .malformed)

end Longform.Yaml
