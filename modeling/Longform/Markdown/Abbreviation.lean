import Longform.Markdown.Token
import Longform.Text.Letter

/-! Abbreviations. A paragraph of definition lines `*[term]: expansion` is hidden, and every later
occurrence of a term in visible text is wrapped with its expansion, longest terms first. -/
namespace Longform.Abbreviation

/-- The term and expansion of a trimmed definition line. -/
def definition? (line : Text) : Option (Text × Text) :=
  match Text.after? "*[".toList line with
  | none => none
  | some r => match Text.cutAt ']' r with
    | some (term, ':' :: s) =>
      let expansion := s.dropWhile Text.isBlank
      if term.isEmpty || expansion.length = s.length || expansion.isEmpty then none
      else (Text.oneLine? expansion).map fun e => (term, Text.trim e)
    | _ => none

/-- The definitions of a group of lines, none when a line that is not blank defines nothing. -/
def definitionsFrom (found : Dictionary Text) : List Text → Option (Dictionary Text)
  | [] => some found
  | l :: ls =>
    let line := Text.trim l
    if line.isEmpty then definitionsFrom found ls
    else match definition? line with
      | none => none
      | some (term, expansion) => definitionsFrom (found.set term expansion) ls

/-- The definitions of a group of lines, none when there are none or a line defines nothing. -/
def definitions? (ls : List Text) : Option (Dictionary Text) :=
  (definitionsFrom [] ls).filter fun d => !d.isEmpty

/-- The lines between the breaks of inline content, none when it holds anything but text. A last
line is counted only if it is not empty. -/
def linesOf (buffer : Text) : List Token → Option (List Text)
  | [] => some (if buffer.isEmpty then [] else [buffer])
  | t :: r =>
    if t.isBreak then (linesOf [] r).map (buffer :: ·)
    else if t.kind = "text" then linesOf (buffer ++ t.content) r
    else none

/-- The definitions of a paragraph. -/
def paragraphDefinitions? (inlineToken : Token) : Option (Dictionary Text) :=
  (linesOf [] (inlineToken.children.getD [])).bind definitions?

def hide (t : Token) : Token := { t with hidden := true }

/-- Hides the paragraphs that define terms and gives the terms found. -/
def collectFrom (found : Dictionary Text) : List Token → List Token × Dictionary Text
  | opening :: inlineToken :: closing :: r =>
    if opening.kind = "paragraph_open" && inlineToken.kind = "inline" &&
        closing.kind = "paragraph_close" then
      match paragraphDefinitions? inlineToken with
      | some d =>
        let out := collectFrom (found.merge d) r
        (hide opening :: { hide inlineToken with children := some [] } :: hide closing :: out.1, out.2)
      | none =>
        let out := collectFrom found (inlineToken :: closing :: r)
        (opening :: out.1, out.2)
    else
      let out := collectFrom found (inlineToken :: closing :: r)
      (opening :: out.1, out.2)
  | ts => (ts, found)

def collect (ts : List Token) : List Token × Dictionary Text := collectFrom [] ts

/-- Inserts a term after all that are at least as long. -/
def insertByLength (term : Text) : List Text → List Text
  | [] => [term]
  | t :: r => if term.length ≤ t.length then t :: insertByLength term r else term :: t :: r

/-- Terms by falling length; of equal length, in order of definition. -/
def byLength (terms : List Text) : List Text := terms.foldl (fun acc t => insertByLength t acc) []

/-- Whether a word begins or ends between two neighbours. -/
def isBoundary (before after : Option Char) : Bool :=
  before.any Text.isWord != after.any Text.isWord

/-- The first of the terms that stands where a text begins, with word boundaries at both ends;
`before` is the character in front. Gives the term and what follows it. -/
def termAt? (before : Option Char) (terms : List Text) (t : Text) : Option (Text × Text) :=
  terms.findSome? fun term => match Text.after? term t with
    | none => none
    | some r =>
      let last := term.getLast?.or before
      if isBoundary before t.head? && isBoundary last r.head? then some (term, r) else none

/-- The occurrences of terms from left to right, as positions and terms. An empty term occurs at
every word boundary that no other occurrence covers. -/
def occurrencesFrom (terms : List Text) : Nat → Nat → Option Char → Text → List (Nat × Text)
  | 0, _, _, _ => []
  | _, pos, before, [] => if terms.any List.isEmpty && isBoundary before none then [(pos, [])] else []
  | fuel + 1, pos, before, c :: r =>
    match termAt? before terms (c :: r) with
    | some (term, s) =>
      if term.isEmpty then (pos, []) :: occurrencesFrom terms fuel (pos + 1) (some c) r
      else (pos, term) :: occurrencesFrom terms fuel (pos + term.length) term.getLast? s
    | none => occurrencesFrom terms fuel (pos + 1) (some c) r

/-- The occurrences of terms, longest terms first, in a text. -/
def occurrences (terms : List Text) (t : Text) : List (Nat × Text) :=
  occurrencesFrom (byLength terms) (t.length + 1) 0 none t

/-- A term with its expansion. -/
def wrap (expansion term : Text) : List Token :=
  [(Token.make "abbr_open" "abbr" 1).withAttr "title" expansion, Token.ofText term,
    Token.make "abbr_close" "abbr" (-1)]

/-- The tokens of a text cut at the given occurrences; `pos` is where the text begins. -/
def cut (expansions : Dictionary Text) : Nat → Text → List (Nat × Text) → List Token
  | _, t, [] => if t.isEmpty then [] else [Token.ofText t]
  | pos, t, (start, term) :: r =>
    let before := t.take (start - pos)
    (if before.isEmpty then [] else [Token.ofText before]) ++
      wrap ((expansions.find? term).getD []) term ++
      cut expansions (start + term.length) (t.drop (start - pos + term.length)) r

/-- A text token with its terms wrapped; a token without terms stays as it is. -/
def splitToken (expansions : Dictionary Text) (t : Token) : List Token :=
  match occurrences expansions.keys t.content with
  | [] => [t]
  | found => cut expansions 0 t.content found

/-- Wraps the terms in the text tokens that no abbreviation element encloses; `depth` counts the
elements that are open. -/
def replaceChildren (expansions : Dictionary Text) : Int → List Token → List Token
  | _, [] => []
  | depth, t :: r =>
    let depth' :=
      if t.kind = "abbr_open" then depth + 1 else if t.kind = "abbr_close" then depth - 1 else depth
    (if t.kind = "text" && depth' ≤ 0 then splitToken expansions t else [t]) ++
      replaceChildren expansions depth' r

def replaceToken (expansions : Dictionary Text) (t : Token) : Token :=
  if t.isVisibleInline then
    { t with children := t.children.map (replaceChildren expansions 0) }
  else t

/-- Wraps the terms in all visible text of a stream. -/
def replace (expansions : Dictionary Text) (ts : List Token) : List Token :=
  if expansions.isEmpty then ts else ts.map (replaceToken expansions)

end Longform.Abbreviation
