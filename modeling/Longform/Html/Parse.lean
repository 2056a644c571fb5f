import Longform.Fault
import Longform.Html.Tree

/-! Markup read into a tree. Nearly every text is markup; only a marked section of an unknown kind and a
reference by a number with too many figures are refused. Reading goes on to a place that cannot be understood yet, and from there once more, with
the end of the text in view. -/
namespace Longform.Html

structure Reader where
  rest : Text
  builder : Builder
  /-- The script or style whose content is being read. -/
  literal : Option Text

/-- The outcome of looking at a construct. -/
inductive Look
  | read (r : Reader)
  /-- The construct is not closed. -/
  | unfinished
  | refused (cause : Fault)

def isLetter (c : Char) : Bool := c.isAlpha

/-- What is before the first place where `after?` succeeds, and what it gives there. -/
def cutWhere (after? : Text → Option Text) : Text → Option (Text × Text)
  | [] => none
  | c :: r => match after? (c :: r) with
    | some rest => some ([], rest)
    | none => (cutWhere after? r).map fun (a, b) => (c :: a, b)

open Text

/-- What follows a closing bracket that blanks may precede. -/
def afterClosing? (t : Text) : Option Text :=
  match t.dropWhile isBlank with
  | '>' :: r => some r
  | _ => none

/-- What follows the end of a comment. -/
def afterComment? : Text → Option Text
  | '-' :: '-' :: r => afterClosing? r
  | _ => none

/-- What follows the end of a marked section with one closing bracket. -/
def afterSingleSection? : Text → Option Text
  | ']' :: r => afterClosing? r
  | _ => none

/-- What follows the end of a marked section with two closing brackets. -/
def afterDoubleSection? : Text → Option Text
  | ']' :: r => afterSingleSection? (r.dropWhile isBlank)
  | _ => none

/-- Reads on behind a construct that is kept as a text of a kind. -/
def Reader.marked (r : Reader) (kind : TextKind) (parts : Option (Text × Text)) : Look :=
  match parts with
  | none => .unfinished
  | some (t, rest) => .read { r with rest := rest, builder := r.builder.mark kind t }

/-- What is made of a start tag with its attributes, if they can be read. -/
def Opening.look (o : Opening) (make : Dictionary Text → Reader) : Look :=
  match o.attributes with
  | .ok attrs => .read (make attrs)
  | .error cause => .refused cause

/-- A start tag; `t` begins behind the angle bracket. -/
def readStart (r : Reader) (t : Text) : Look :=
  let o := opening t
  let name := Text.lower o.name
  match o.ending with
  | (.closed, rest) => o.look fun attrs => { r with
      rest := rest
      builder := r.builder.openTag name attrs
      literal := if isLiteralName name then some name else r.literal }
  | (.selfClosed, rest) => o.look fun attrs =>
    { r with rest := rest, builder := r.builder.openAndClose name attrs }
  | (.unfinished, _) => .unfinished
  | (.broken _, rest) => o.look fun _ =>
    { r with rest := rest, builder := r.builder.write (r.rest.take (r.rest.length - rest.length)) }

def isEndNameChar (c : Char) : Bool := c.isAlphanum || c = '-' || c = '.' || c = ':' || c = '_'

/-- The name in a plain end tag, and what follows the tag; `t` begins behind the slash. -/
def plainEnd? (t : Text) : Option (Text × Text) :=
  let u := t.dropWhile isBlank
  match u with
  | c :: _ =>
    if c.isAlpha then
      let name := u.takeWhile isEndNameChar
      match (u.drop name.length).dropWhile isBlank with
      | '>' :: rest => some (name, rest)
      | _ => none
    else none
  | [] => none

/-- An end tag; `t` begins behind the slash. -/
def readEnd (r : Reader) (t : Text) : Look :=
  match cutAt '>' t with
  | none => .unfinished
  | some (inside, behind) =>
    let asText : Look :=
      .read { r with rest := behind, builder := r.builder.write ("</".toList ++ inside ++ ['>']) }
    match plainEnd? t with
    | some (name, rest) =>
      let name := Text.lower name
      if r.literal.any (· ≠ name) then asText
      else .read { r with rest := rest, builder := r.builder.close name, literal := none }
    | none =>
      if r.literal.isSome then asText
      else if t.head?.any isLetter then
        let name := Text.lower (t.takeWhile fun c => !endsName c)
        .read { r with rest := behind, builder := r.builder.close name }
      else if inside.isEmpty then .read { r with rest := behind }
      else r.marked .comment (some (inside, behind))

/-- Kinds of marked sections, those that two brackets close and those that one closes. -/
def doubleSections : List Text := ["temp", "cdata", "ignore", "include", "rcdata"].map String.toList
def singleSections : List Text := ["if", "else", "endif"].map String.toList

def isSectionChar (c : Char) : Bool := c.isAlphanum || c = '-' || c = '_' || c = '.'

/-- A marked section; `t` begins behind its opening bracket. -/
def readSection (r : Reader) (t : Text) : Look :=
  match t with
  | [] => .unfinished
  | c :: _ =>
    if !c.isAlpha then .refused .markup
    else
      let name := Text.lower (t.takeWhile isSectionChar)
      if (t.drop name.length).all isBlank then .unfinished
      else
        let close := if Text.isOneOf name doubleSections then some afterDoubleSection?
          else if Text.isOneOf name singleSections then some afterSingleSection?
          else none
        match close with
        | none => .refused .markup
        | some after? =>
          match cutWhere after? t with
          | none => .unfinished
          | some (inside, rest) =>
            if Text.upper (inside.take 6) = "CDATA[".toList then
              r.marked .rawData (some (inside.drop 6, rest))
            else r.marked .declaration (some (inside, rest))

/-- What begins with an angle bracket and an exclamation mark; `t` begins behind them. -/
def readDeclaration (r : Reader) (t : Text) : Look :=
  match t with
  | '-' :: '-' :: u => r.marked .comment (cutWhere afterComment? u)
  | '[' :: u => readSection r u
  | _ =>
    if Text.lower (t.take 7) = "doctype".toList then
      match cutAt '>' (t.drop 7) with
      | none => .unfinished
      | some (inside, rest) => r.marked .doctype (some (inside.drop 1, rest))
    else r.marked .comment (cutAt '>' t)

/-- A construct that begins with an angle bracket; none when it is no more than that. -/
def readAngle (r : Reader) : Option Look :=
  match r.rest with
  | '<' :: c :: t =>
    if isLetter c then some (readStart r (c :: t))
    else if c = '/' then some (readEnd r t)
    else if c = '!' then some (readDeclaration r t)
    else if c = '?' then some (r.marked .instruction (cutAt '>' t))
    else some (.read { r with rest := c :: t, builder := r.builder.write ['<'] })
  | _ => none

/-- Reads as text what is not closed: up to the next closing bracket, or else the next opening one,
or else one character. -/
def readUnfinished (r : Reader) : Reader :=
  let behind := r.rest.drop 1
  let n := match cutAt '>' behind with
    | some (inside, _) => inside.length + 2
    | none => match cutAt '<' behind with
      | some (inside, _) => inside.length + 1
      | none => 1
  { r with rest := r.rest.drop n, builder := r.builder.write (r.rest.take n) }

/-- A reference by number behind an ampersand and `#`. Something else has to follow it. -/
def textNumeral? (t : Text) : Option (Numeral × Text) :=
  match numeral? t with
  | none => none
  | some (m, rest) => match rest with
    | [] => none
    | c :: r => if isHexDigit c then none else some (m, if c = ';' then r else c :: r)

def isReferenceChar (c : Char) : Bool := c.isAlphanum || c = '-' || c = '.'

/-- The name of a reference behind an ampersand, and what follows. At the end of the text the last
hyphen or full stop ends the name. -/
def textName? (t : Text) : Option (Text × Text) :=
  if !t.head?.any isLetter then none
  else
    let run := t.takeWhile isReferenceChar
    match t.drop run.length with
    | c :: r => some (run, if c = ';' then r else c :: r)
    | [] =>
      let tail := (run.reverse.takeWhile Char.isAlphanum).reverse
      if tail.length < run.length then
        let name := run.take (run.length - tail.length - 1)
        some (name, t.drop name.length)
      else none

/-- Whether reading goes on. -/
inductive Step
  | more (r : Reader)
  | stop (r : Reader)
  | refused (cause : Fault)

/-- A reference; the ampersand is the first character of the rest. -/
def readReference (final : Bool) (r : Reader) : Step :=
  let write (t rest : Text) : Reader := { r with rest := rest, builder := r.builder.write t }
  match r.rest with
  | '&' :: '#' :: t => match textNumeral? t with
    | some (m, rest) => match m.value with
      | .ok n => .more (write [textNumber n] rest)
      | .error cause => .refused cause
    | none => .stop (if ';' ∈ t then write ['&', '#'] t else r)
  | '&' :: t => match textName? t with
    | some (name, rest) =>
      .more (write (match entity? name with | some e => e.text | none => '&' :: name) rest)
    | none =>
      if t.head?.any isLetter then .stop (if final && t.length = 1 then { r with rest := t } else r)
      else if t.isEmpty then .stop r
      else .more (write ['&'] t)
  | _ => .stop r

/-- Whether an end tag of the script or style begins here. -/
def closesLiteral (name t : Text) : Bool :=
  match t with
  | '<' :: '/' :: u =>
    let v := u.dropWhile isBlank
    (v.take name.length).map foldChar = name &&
      ((v.drop name.length).dropWhile isBlank).head? = some '>'
  | _ => false

/-- The content of a script or style, and its end tag with what follows. -/
def cutLiteral (name : Text) : Text → Option (Text × Text)
  | [] => none
  | c :: r =>
    if closesLiteral name (c :: r) then some ([], c :: r)
    else (cutLiteral name r).map fun (a, b) => (c :: a, b)

/-- The text up to the next construct. -/
def plainPart (r : Reader) : Option (Text × Text) :=
  match r.literal with
  | some name => cutLiteral name r.rest
  | none =>
    let isPlain (c : Char) : Bool := c ≠ '<' && c ≠ '&'
    some (r.rest.takeWhile isPlain, r.rest.dropWhile isPlain)

/-- Reads text and the construct behind it. -/
def step (final : Bool) (r : Reader) : Step :=
  match plainPart r with
  | none => .stop r
  | some (t, rest) =>
    let r := { r with rest := rest, builder := if t.isEmpty then r.builder else r.builder.write t }
    if rest.isEmpty then .stop r
    else if rest.head? = some '&' then readReference final r
    else match readAngle r with
      | none => .stop r
      | some (.read r) => .more r
      | some (.refused cause) => .refused cause
      | some .unfinished => if final then .more (readUnfinished r) else .stop r

/-- Reads as far as possible. -/
def readFrom (final : Bool) : Nat → Reader → Except Fault Reader
  | 0, r => .ok r
  | fuel + 1, r =>
    if r.rest.isEmpty then .ok r
    else match step final r with
      | .refused cause => .error cause
      | .stop r => .ok r
      | .more r => readFrom final fuel r

/-- The nodes of a text. What cannot be understood at the end is text, unless it belongs to a script or
style that is never closed. -/
def parse (t : Text) : Except Fault (List Node) := do
  let r ← readFrom false (t.length + 1) ⟨t, .empty, none⟩
  let r ← readFrom true (r.rest.length + 1) r
  let b := if r.rest.isEmpty || r.literal.isSome then r.builder else r.builder.write r.rest
  .ok b.finish

end Longform.Html
