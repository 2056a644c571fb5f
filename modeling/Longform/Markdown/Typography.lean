import Longform.Markdown.Escape
import Longform.Markdown.Token
import Longform.Text.Letter

/-! Typographic marks: signs written with plain characters, dashes, dots, and quotation marks that
curl towards what they enclose. -/
namespace Longform.Typography
open Markdown

/-! Signs in parentheses. -/

/-- A sign in parentheses where a text begins, and what follows it. -/
def sign? : Text → Option (Char × Text)
  | '(' :: c :: ')' :: r =>
    if c = 'c' || c = 'C' then some ('©', r)
    else if c = 'r' || c = 'R' then some ('®', r)
    else none
  | '(' :: t :: m :: ')' :: r =>
    if (t = 't' || t = 'T') && (m = 'm' || m = 'M') then some ('™', r) else none
  | _ => none

def hasSign : Text → Bool
  | [] => false
  | c :: r => (sign? (c :: r)).isSome || hasSign r

def signsFrom : Nat → Text → Text
  | 0, t => t
  | _, [] => []
  | fuel + 1, c :: r => match sign? (c :: r) with
    | some (s, rest) => s :: signsFrom fuel rest
    | none => c :: signsFrom fuel r

def signs (t : Text) : Text := signsFrom t.length t

/-! Runs of marks. -/

/-- How often `c` stands where a text begins. -/
def run (c : Char) (t : Text) : Nat := (t.takeWhile (· = c)).length

def plusMinus : Text → Text
  | '+' :: '-' :: r => '±' :: plusMinus r
  | c :: r => c :: plusMinus r
  | [] => []

/-- Runs of at least two of a character, each replaced by another; `inRun` tells that the run is
replaced already. -/
def collapse (c new : Char) : Bool → Text → Text
  | _, [] => []
  | inRun, d :: r =>
    if d ≠ c then d :: collapse c new false r
    else if inRun then collapse c new true r
    else if r.head? = some c then new :: collapse c new true r
    else d :: collapse c new false r

def isTone (c : Char) : Bool := c = '?' || c = '!'

/-- An ellipsis behind a question or exclamation mark is written with two dots. -/
def dotsAfterTone : Text → Text
  | c :: '…' :: r =>
    if isTone c then c :: '.' :: '.' :: dotsAfterTone r else c :: dotsAfterTone ('…' :: r)
  | c :: r => c :: dotsAfterTone r
  | [] => []

/-- Runs of four and more question and exclamation marks become three of the last. -/
def tonesFrom : Nat → Text → Text
  | 0, t => t
  | _, [] => []
  | fuel + 1, c :: r =>
    if isTone c then
      let tones := (c :: r).takeWhile isTone
      let shortened := if 4 ≤ tones.length then List.replicate 3 (tones.getLastD c) else tones
      shortened ++ tonesFrom fuel ((c :: r).dropWhile isTone)
    else c :: tonesFrom fuel r

def tones (t : Text) : Text := tonesFrom t.length t

/-- What a run of hyphens becomes between two neighbours: three are a long dash; two are a short one
with blanks or ends on both sides, or with neither. -/
def dash (before after : Option Char) (n : Nat) : Text :=
  let isOpen (c : Option Char) : Bool := c.all Text.isBlank
  let isClosed (c : Option Char) : Bool := c.all fun d => !Text.isBlank d
  if n = 3 then ['—']
  else if n = 2 && ((isOpen before && isOpen after) || (isClosed before && isClosed after)) then ['–']
  else List.replicate n '-'

def dashesFrom : Nat → Option Char → Text → Text
  | 0, _, t => t
  | _, _, [] => []
  | fuel + 1, before, c :: r =>
    if c = '-' then
      let rest := r.dropWhile (· = '-')
      dash before rest.head? (run '-' (c :: r)) ++ dashesFrom fuel (some c) rest
    else c :: dashesFrom fuel (some c) r

def dashes (t : Text) : Text := dashesFrom t.length none t

/-- Whether a text has marks that are written otherwise. -/
def hasRun : Text → Bool
  | [] => false
  | c :: r =>
    (c = '+' && r.head? = some '-') || ((c = '.' || c = ',' || c = '-') && r.head? = some c) ||
      (isTone c && 3 ≤ run c r) || hasRun r

def runs (t : Text) : Text :=
  if hasRun t then dashes (collapse ',' ',' false (tones (dotsAfterTone (collapse '.' '…' false
    (plusMinus t)))))
  else t

/-- Changes the texts outside bare links; `depth` is zero there. -/
def mapTexts (f : Text → Text) : Int → List Token → List Token
  | _, [] => []
  | depth, t :: r =>
    let t' := if t.kind = "text" && depth = 0 then { t with content := f t.content } else t
    let isAuto := t.info = "auto".toList
    let depth := if t.kind = "link_open" && isAuto then depth - 1 else depth
    let depth := if t.kind = "link_close" && isAuto then depth + 1 else depth
    t' :: mapTexts f depth r

/-- Replaces signs and runs of marks, as far as the source of the token has any. -/
def replaceMarks (t : Token) : Token :=
  if t.kind ≠ "inline" then t
  else
    let t := if hasSign t.content then { t with children := t.children.map (mapTexts signs 0) } else t
    if hasRun t.content then { t with children := t.children.map (mapTexts runs 0) } else t

/-! Quotation marks. -/

def isQuote (c : Char) : Bool := c = '\'' || c = '"'

/-- A quotation mark that may open: where it stands, and at which level. -/
structure Opening where
  token : Nat
  pos : Nat
  single : Bool
  level : Int

structure Quoting where
  tokens : Array Token
  /-- The marks that may still be closed, innermost first. -/
  openings : List Opening

def putChar (c : Char) (i pos : Nat) (ts : Array Token) : Array Token :=
  ts.modify i fun t => { t with content := t.content.set pos c }

/-- The last character in front of a token on its line, a space when there is none. -/
def lastBefore (ts : Array Token) : Nat → Char
  | 0 => ' '
  | i + 1 =>
    let t := ts.getD i default
    if t.isBreak then ' '
    else match t.content.getLast? with
      | some c => c
      | none => lastBefore ts i

/-- The first character of some tokens on their line, a space when there is none. -/
def firstOf : List Token → Char
  | [] => ' '
  | t :: r => if t.isBreak then ' ' else t.content.head?.getD (firstOf r)

/-- Whether a mark between two neighbours may open and whether it may close. -/
def canOpenClose (mark last next : Char) : Bool × Bool :=
  let lastMark := Text.isMark last
  let nextMark := Text.isMark next
  let lastWhite := isWhite last
  let nextWhite := isWhite next
  let canOpen := !(nextWhite || (nextMark && !(lastWhite || lastMark)))
  let canClose := !(lastWhite || (lastMark && !(nextWhite || nextMark)))
  let isInch := next = '"' && mark = '"' && last.isDigit
  if isInch then (false, false)
  else if canOpen && canClose then (lastMark, nextMark)
  else (canOpen, canClose)

/-- The innermost opening of a kind at a level, with the openings around it; openings at lower levels
are out of reach. -/
def findOpening? (single : Bool) (level : Int) : List Opening → Option (Opening × List Opening)
  | [] => none
  | o :: r =>
    if o.level < level then none
    else if o.single = single && o.level = level then some (o, r)
    else findOpening? single level r

/-- Curls the mark at position `pos` of token `i`. -/
def curl (i pos : Nat) (mark last next : Char) (q : Quoting) : Quoting :=
  let level := (q.tokens.getD i default).level
  let single := mark = '\''
  let apostrophe (q : Quoting) : Quoting :=
    if single then { q with tokens := putChar '’' i pos q.tokens } else q
  match canOpenClose mark last next with
  | (false, false) => apostrophe q
  | (canOpen, canClose) =>
    match if canClose then findOpening? single level q.openings else none with
    | some (o, outer) =>
      let (a, b) := if single then ('‘', '’') else ('“', '”')
      ⟨putChar a o.token o.pos (putChar b i pos q.tokens), outer⟩
    | none =>
      if canOpen then { q with openings := ⟨i, pos, single, level⟩ :: q.openings }
      else apostrophe q

/-- Curls the marks of a text from position `pos` on; `last` is the character in front and `after`
the one behind the text. -/
def curlText (i : Nat) (after : Char) : Nat → Char → Text → Quoting → Quoting
  | _, _, [], q => q
  | pos, last, c :: r, q =>
    curlText i after (pos + 1) c r
      (if isQuote c then curl i pos c last (r.head?.getD after) q else q)

/-- Curls the marks of the token at position `i`. Openings of deeper levels are given up. -/
def curlToken (q : Quoting) (i : Nat) : Quoting :=
  let t := q.tokens.getD i default
  let q := { q with openings := q.openings.dropWhile fun o => t.level < o.level }
  if t.kind ≠ "text" then q
  else curlText i (firstOf (q.tokens.toList.drop (i + 1))) 0 (lastBefore q.tokens i) t.content q

def curlChildren (cs : List Token) : List Token :=
  ((List.range cs.length).foldl curlToken ⟨cs.toArray, []⟩).tokens.toList

/-- Curls the quotation marks of running text. -/
def curlQuotes (t : Token) : Token :=
  if t.kind = "inline" && t.content.any isQuote then
    { t with children := t.children.map curlChildren }
  else t

end Longform.Typography
