import Longform.Address.Bare
import Longform.Address.Basic
import Longform.Markdown.Inline.State
import Longform.Markdown.RawHtml
import Longform.Markdown.Wikilink

/-! The rules of running text. Each looks at the position and either declines or reads something
there; in silent mode it moves the position only. -/
namespace Longform.Markdown.Inline

/-- Whether a rule has read something, and the state after it. -/
abbrev Step := Bool × State

def decline (s : State) : Step := (false, s)
def accept (s : State) (pos : Nat) : Step := (true, { s with pos := pos })

def isTerminator (c : Char) : Bool := c ∈ "\n!#$%&*+-:<=>@[\\]^_\x60\x7b\x7d~".toList

/-- Plain text up to the next character that may begin something else. -/
def plainText (silent : Bool) (s : State) : Step :=
  let stop := skipWhile s.src (fun c => !isTerminator c) s.src.size (s.src.size - s.pos) s.pos
  if stop = s.pos then decline s
  else accept (if silent then s else s.write (s.slice s.pos stop)) stop

/-- The scheme that pending text ends with. -/
def pendingScheme? (pending : Text) : Option Text :=
  let name := (pending.reverse.takeWhile Address.isSchemeChar).reverse
  if name.head?.any fun c => (Text.foldChar c).isAlpha then some name else none

/-- The tokens of a link around an address that stands in the text itself. -/
def addressLink (markup : String) (href shown : Text) : List Token :=
  [{ (Token.make "link_open" "a" 1).withAttr "href" href with
      markup := markup.toList, info := "auto".toList },
    Token.ofText shown,
    { Token.make "link_close" "a" (-1) with markup := markup.toList, info := "auto".toList }]

/-- An address with a scheme, recognised at the `://` behind the scheme. -/
def bareAddress (silent : Bool) (s : State) : Step :=
  if 0 < s.links || s.max < s.pos + 3 || s.src[s.pos]? ≠ some ':' || s.src[s.pos + 1]? ≠ some '/' ||
      s.src[s.pos + 2]? ≠ some '/' then decline s
  else match pendingScheme? s.pending with
    | none => decline s
    | some scheme => match Bare.linkAtStart? (s.slice (s.pos - scheme.length) s.src.size) with
      | none => decline s
      | some l =>
        if l.address.length ≤ scheme.length then decline s
        else
          let address := Text.dropEndWhile (· = '*') l.address
          match Address.written address with
          | .error e => decline (s.fail e)
          | .ok href =>
            if !Address.isAllowed href then decline s
            else
              let stop := s.pos + (address.length - scheme.length)
              if silent then accept s stop
              else
                let s := { s with pending := s.pending.take (s.pending.length - scheme.length) }
                accept (s.pushAll (addressLink "linkify" href (Address.shown address))) stop

/-- A line break; two or more spaces in front make it a hard one. -/
def lineBreak (silent : Bool) (s : State) : Step :=
  if s.char? ≠ some '\n' then decline s
  else
    let stop := s.skipGaps (s.pos + 1)
    if silent then accept s stop
    else
      let spaces := (s.pending.reverse.takeWhile (· = ' ')).length
      let kept := s.pending.length - (if 2 ≤ spaces then spaces else min spaces 1)
      let kind := if 2 ≤ spaces then "hardbreak" else "softbreak"
      accept ({ s with pending := s.pending.take kept }.push (Token.make kind "br" 0)) stop

/-- A character that stands for something else, with the way it is written. -/
def special (content markup : Text) (info : String) : Token :=
  { Token.make "text_special" "" 0 with content := content, markup := markup, info := info.toList }

/-- A backslash: a hard break at the end of a line, or a character that stands for itself. -/
def backslash (silent : Bool) (s : State) : Step :=
  if s.char? ≠ some '\\' || s.max ≤ s.pos + 1 then decline s
  else match s.src[s.pos + 1]? with
    | none => decline s
    | some '\n' =>
      accept (if silent then s else s.push (Token.make "hardbreak" "br" 0)) (s.skipGaps (s.pos + 2))
    | some c =>
      let content := if Text.isAsciiPunctuation c then [c] else ['\\', c]
      accept (if silent then s else s.push (special content ['\\', c] "escape")) (s.pos + 2)

/-- The content of a code span: line breaks are spaces, and one space at both ends goes away unless
there is nothing else. -/
def codeContent (t : Text) : Text :=
  let u := t.map fun c => if c = '\n' then ' ' else c
  if u.head? = some ' ' && u.getLast? = some ' ' && !(Text.trim u).isEmpty then u.tail.dropLast
  else u

/-- Looks for the closing run of a code span from `pos` on; notes the runs of other lengths. -/
def findBackticks (length : Nat) : Nat → Nat → State → Option (Nat × Nat) × State
  | 0, _, s => (none, s)
  | fuel + 1, pos, s =>
    let start := skipWhile s.src (· ≠ '\x60') s.src.size (s.src.size - pos) pos
    if s.src.size ≤ start then (none, { s with backticksSeen := true })
    else
      let stop := s.runEnd (· = '\x60') (start + 1)
      if stop - start = length then (some (start, stop), s)
      else findBackticks length fuel stop
        { s with backticks := (stop - start, start) :: s.backticks }

/-- A code span between runs of backticks of one length. -/
def codeSpan (silent : Bool) (s : State) : Step :=
  if s.char? ≠ some '\x60' then decline s
  else
    let stop := s.runEnd (· = '\x60') (s.pos + 1)
    let marker := s.slice s.pos stop
    let asText (s : State) : Step := accept (if silent then s else s.write marker) stop
    if s.backticksSeen && (s.backticks.lookup (stop - s.pos)).getD 0 ≤ s.pos then asText s
    else match findBackticks (stop - s.pos) (s.src.size + 1) stop s with
      | (none, s) => asText s
      | (some (closeStart, closeStop), s) =>
        if silent then accept s closeStop
        else accept (s.push { Token.make "code_inline" "code" 0 with
          markup := marker, content := codeContent (s.slice stop closeStart) }) closeStop

/-- Adds marks as texts of their own, each with a delimiter. -/
def pushMarks (mark : Char) (content : Text) (length : Nat) (f : Flanks) : Nat → State → State
  | 0, s => s
  | n + 1, s =>
    let s := s.push (Token.ofText content)
    pushMarks mark content length f n
      (s.addDelimiter ⟨mark, length, s.tokens.size - 1, none, f.canOpen, f.canClose⟩)

/-- Tildes, in pairs; an odd one in front is plain text. -/
def tildes (silent : Bool) (s : State) : Step :=
  if silent || s.char? ≠ some '~' then decline s
  else
    let f := s.flanks true
    if f.length < 2 then decline s
    else
      let s' := if f.length % 2 = 1 then s.push (Token.ofText ['~']) else s
      accept (pushMarks '~' ['~', '~'] 0 f (f.length / 2) s') (s.pos + f.length)

/-- Stars and underscores, one by one. -/
def stars (silent : Bool) (s : State) : Step :=
  match s.char? with
  | some c =>
    if silent || (c ≠ '*' && c ≠ '_') then decline s
    else
      let f := s.flanks (c = '*')
      accept (pushMarks c [c] f.length f f.length s) (s.pos + f.length)
  | none => decline s

/-- A link in double brackets. -/
def wikilink (searchPrefix : Option Text) (silent : Bool) (s : State) : Step :=
  if s.char? ≠ some '!' && s.char? ≠ some '[' then decline s
  else
    let t := s.slice s.pos s.max
    match Wikilink.read? t with
    | none => decline s
    | some (w, r) =>
      let stop := s.pos + (t.length - r.length)
      if silent then accept s stop
      else match w.tokens searchPrefix with
        | .error e => decline (s.fail e)
        | .ok ts => accept (s.pushAll ts) stop

/-- The closing bracket of the label that opens at `start`. With `noNested`, a label that holds a
link has none. -/
def labelEndFrom (skip : State → State) (noNested : Bool) : Nat → Nat → State → Option Nat × State
  | 0, _, s => (none, s)
  | fuel + 1, depth, s =>
    if s.max ≤ s.pos then (none, s)
    else if s.char? = some ']' && depth = 1 then (some s.pos, s)
    else
      let mark := s.char?
      let s' := skip s
      let depth := if mark = some ']' then depth - 1 else depth
      if mark = some '[' then
        if s'.pos = s.pos + 1 then labelEndFrom skip noNested fuel (depth + 1) s'
        else if noNested then (none, s')
        else labelEndFrom skip noNested fuel depth s'
      else labelEndFrom skip noNested fuel depth s'

def labelEnd (skip : State → State) (noNested : Bool) (start : Nat) (s : State) :
    Option Nat × State :=
  let (stop, s') := labelEndFrom skip noNested (s.max + 2) 1 { s with pos := start + 1 }
  (stop, { s' with pos := s.pos })

/-- Where a link leads, and the position after it. -/
structure Target where
  href : Text
  title : Text
  stop : Nat

/-- The outcome of reading a destination in parentheses. -/
inductive Inlined
  /-- The text ends inside. -/
  | cut
  | missing (stop : Nat)
  | found (target : Target)

/-- The destination at a position with the title behind it, and the position after them. -/
def readDestination (s : State) (pos : Nat) : Except Fault (Text × Text × Nat) :=
  match destination? s.src pos s.max with
  | none => .ok ([], [], pos)
  | some d => (Address.written d.text).map fun written =>
    let (href, pos) := if Address.isAllowed written then (written, d.stop) else ([], pos)
    let next := s.skipGapsAndBreaks pos
    match if next < s.max && next ≠ pos then title? s.src next s.max else none with
    | some t => (href, t.text, s.skipGapsAndBreaks t.stop)
    | none => (href, [], next)

/-- Reads destination and title in parentheses, from the position after the opening one on. -/
def readInlined (s : State) (start : Nat) : Except Fault Inlined :=
  let pos := s.skipGapsAndBreaks start
  if s.max ≤ pos then .ok .cut
  else (readDestination s pos).map fun (href, title, pos) =>
    if pos < s.max && s.src[pos]? = some ')' then .found ⟨href, title, pos + 1⟩
    else .missing (pos + 1)

/-- Looks up a label: one in brackets at `pos`, or else the text between `start` and `stop`. -/
def readReferenced (definitions : Dictionary Definition) (skip : State → State)
    (start stop pos : Nat) (s : State) : Option Target × State :=
  if definitions.isEmpty then (none, s)
  else
    let (label, after, s) :=
      if pos < s.max && s.src[pos]? = some '[' then
        match labelEnd skip false pos s with
        | (some e, s) => (s.slice (pos + 1) e, e + 1, s)
        | (none, s) => (([] : Text), stop + 1, s)
      else ([], stop + 1, s)
    let label := if label.isEmpty then s.slice start stop else label
    match definitions.find? (labelKey label) with
    | some d => (some ⟨d.href, d.title, after⟩, s)
    | none => (none, s)

/-- The end of a link's label, and where it leads. -/
def readLink (definitions : Dictionary Definition) (skip : State → State) (s : State) :
    Option (Nat × Target) × State :=
  match labelEnd skip true s.pos s with
  | (none, s) => (none, s)
  | (some stop, s) =>
    let referenced (pos : Nat) : Option (Nat × Target) × State :=
      let (t, s) := readReferenced definitions skip (s.pos + 1) stop pos s
      (t.map fun t => (stop, t), s)
    if stop + 1 < s.max && s.src[stop + 1]? = some '(' then
      match readInlined s (stop + 2) with
      | .error e => (none, s.fail e)
      | .ok .cut => (none, s)
      | .ok (.found t) => (some (stop, t), s)
      | .ok (.missing pos) => referenced pos
    else referenced (stop + 1)

def withTitle (title : Text) (t : Token) : Token :=
  if title.isEmpty then t else t.withAttr "title" title

/-- A link; `inner` reads its label as running text. -/
def link (definitions : Dictionary Definition) (skip inner : State → State) (silent : Bool)
    (s : State) : Step :=
  if s.char? ≠ some '[' then decline s
  else match readLink definitions skip s with
    | (none, s) => decline s
    | (some (stop, t), s) =>
      if silent then accept s t.stop
      else
        let opening := withTitle t.title ((Token.make "link_open" "a" 1).withAttr "href" t.href)
        let s₁ := { s with pos := s.pos + 1, max := stop }.push opening
        let s₂ := inner { s₁ with links := s₁.links + 1 }
        let s₃ := { s₂ with links := s₂.links - 1 }.push (Token.make "link_close" "a" (-1))
        accept { s₃ with max := s.max } t.stop

/-- The end of an image's label, and where it leads. -/
def readImage (definitions : Dictionary Definition) (skip : State → State) (s : State) :
    Option (Nat × Target) × State :=
  match labelEnd skip false (s.pos + 1) s with
  | (none, s) => (none, s)
  | (some stop, s) =>
    if stop + 1 < s.max && s.src[stop + 1]? = some '(' then
      match readInlined s (stop + 2) with
      | .error e => (none, s.fail e)
      | .ok (.found t) => (some (stop, t), s)
      | .ok _ => (none, s)
    else
      let (t, s) := readReferenced definitions skip (s.pos + 2) stop (stop + 1) s
      (t.map fun t => (stop, t), s)

/-- An image; `parse` reads its description. -/
def image (definitions : Dictionary Definition) (skip : State → State)
    (parse : Text → Except Fault (List Token)) (silent : Bool) (s : State) : Step :=
  if s.char? ≠ some '!' || (s.pos + 1 < s.max && s.src[s.pos + 1]? ≠ some '[') then decline s
  else match readImage definitions skip s with
    | (none, s) => decline s
    | (some (stop, t), s) =>
      if silent then accept s t.stop
      else
        let content := s.slice (s.pos + 2) stop
        match parse content with
        | .error e => decline (s.fail e)
        | .ok children =>
          let token := ((Token.make "image" "img" 0).withAttr "src" t.href).withAttr "alt" []
          accept (s.push { withTitle t.title token with
            children := if children.isEmpty then none else some children, content := content }) t.stop

open Text Text.Pattern in
/-- An absolute address: a scheme of two to 32 characters, a colon, and no angles, spaces or
controls. -/
def absoluteAddress : Pattern := all [.char (fun c => c.isAlpha),
  .span 1 (some 31) (fun c => c.isAlphanum || c ∈ "+.-".toList), is ':',
  .span 0 none (fun c => 32 < c.toNat && c ≠ '<' && c ≠ '>'), .ending]

open Text Text.Pattern in
/-- A host label of a mail box. -/
def mailLabel : Pattern := .seq (.char Char.isAlphanum)
  (opt (.seq (.span 0 (some 61) fun c => c.isAlphanum || c = '-') (.char Char.isAlphanum)))

open Text Text.Pattern in
def mailAddress : Pattern := all [
  .span 1 none (fun c => c.isAlphanum || c ∈ ".!#$%&'*+/=?^_\x60\x7b|\x7d~-".toList), is '@', mailLabel,
  star (.seq (is '.') mailLabel), .ending]

/-- An address or mail box in angle brackets. -/
def autolink (silent : Bool) (s : State) : Step :=
  if s.char? ≠ some '<' then decline s
  else
    let stop := s.runEnd (fun c => c ≠ '<' && c ≠ '>') (s.pos + 1)
    if s.max ≤ stop || s.src[stop]? ≠ some '>' then decline s
    else
      let inside := s.slice (s.pos + 1) stop
      let href? := if absoluteAddress.isPrefixOf inside then some (Address.written inside)
        else if mailAddress.isPrefixOf inside then some (Address.written ("mailto:".toList ++ inside))
        else none
      match href? with
      | none => decline s
      | some (.error e) => decline (s.fail e)
      | some (.ok href) =>
        if !Address.isAllowed href then decline s
        else accept (if silent then s
          else s.pushAll (addressLink "autolink" href (Address.shown inside))) (stop + 1)

/-- A raw tag. -/
def rawTag (silent : Bool) (s : State) : Step :=
  if s.char? ≠ some '<' || s.max ≤ s.pos + 2 then decline s
  else match s.src[s.pos + 1]? with
    | none => decline s
    | some c =>
      if !c.isAlpha && c ≠ '!' && c ≠ '?' && c ≠ '/' then decline s
      else match RawHtml.tag.length? s.rest with
        | none => decline s
        | some n =>
          if silent then accept s (s.pos + n)
          else
            let content := s.slice s.pos (s.pos + n)
            let s := s.push { Token.make "html_inline" "" 0 with content := content }
            let more := (if RawHtml.opensLink content then 1 else 0) -
              (if RawHtml.closesLink content then 1 else 0)
            accept { s with links := s.links + more } (s.pos + n)

/-- The character that a reference at the beginning of a text stands for, and the length of the
reference. -/
def reference? (t : Text) : Option (Text × Nat) :=
  match referenceName? t with
  | none => none
  | some (name, _) =>
    let length := name.length + 2
    if name.head? = some '#' then
      (numeric? 7 6 name).map fun n => ([if isReferable n then Char.ofNat n else '\uFFFD'], length)
    else (Html.entity? name).map fun e => (e.text, length)

/-- A character reference. -/
def characterReference (silent : Bool) (s : State) : Step :=
  if s.char? ≠ some '&' || s.max ≤ s.pos + 1 then decline s
  else
    let t := s.rest
    match reference? t with
    | none => decline s
    | some (content, n) =>
      accept (if silent then s else s.push (special content (t.take n) "entity")) (s.pos + n)

end Longform.Markdown.Inline
