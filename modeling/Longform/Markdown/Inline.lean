import Longform.Markdown.Inline.Emphasis
import Longform.Markdown.Inline.Rule

/-! Running text as tokens. At every position the rules are tried in order, and a character that no
rule reads is plain text. -/
namespace Longform.Markdown.Inline

/-- Elements nest no deeper than this. -/
def maxNesting : Nat := 100

/-- What the rules need: how to skip a token, how to read a label, how to read a description. -/
structure Readers where
  skip : State → State
  inner : State → State
  parse : Text → Except Fault (List Token)

def rules (c : Context) (r : Readers) : List (Bool → State → Step) :=
  [plainText, bareAddress, lineBreak, backslash, codeSpan, tildes, stars,
    wikilink c.searchPrefix, link c.definitions r.skip r.inner, image c.definitions r.skip r.parse,
    autolink, rawTag, characterReference]

/-- The first rule that reads something. -/
def tryRules : List (Bool → State → Step) → Bool → State → Step
  | [], _, s => decline s
  | rule :: rest, silent, s => match rule silent s with
    | (true, s) => (true, s)
    | (false, s) => tryRules rest silent s

/-- Notes where the token at a position ends. -/
def remember (pos : Nat) (s : State) : State := { s with skipped := s.skipped.set! pos (some s.pos) }

/-- Skips the token at the position; `n` is how deep tokens may still nest. -/
def skipToken (c : Context) : Nat → State → State
  | 0, s => match (s.skipped[s.pos]?).join with
    | some stop => { s with pos := stop }
    | none => remember s.pos { s with pos := s.max + 1 }
  | n + 1, s => match (s.skipped[s.pos]?).join with
    | some stop => { s with pos := stop }
    | none =>
      match tryRules (rules c ⟨skipToken c n, id, fun _ => .ok []⟩) true s with
      | (true, s') => remember s.pos s'
      | (false, s') => remember s.pos { s' with pos := s'.pos + 1 }

/-- Reads on to the end of the range; `fuel` bounds the number of tokens. -/
def readFrom (c : Context) (r : Readers) : Nat → State → State
  | 0, s => s.flush
  | fuel + 1, s =>
    if s.max ≤ s.pos then s.flush
    else match if s.level < maxNesting then tryRules (rules c r) false s else decline s with
      | (true, s) => readFrom c r fuel s
      | (false, s) => readFrom c r fuel { s.write [s.src.getD s.pos ' '] with pos := s.pos + 1 }

/-- The tokens that have been read, if nothing went wrong. -/
def outcome (s : State) : Except Fault (List Token) :=
  match s.fault with
  | some e => .error e
  | none => .ok (resolve s)

/-- Reads the range of a state; `depth` bounds how deep labels and descriptions nest. -/
def read (c : Context) : Nat → State → State
  | 0, s => s.flush
  | depth + 1, s =>
    let skip (s : State) : State := skipToken c (maxNesting - s.level) s
    readFrom c ⟨skip, read c depth, fun t => outcome (read c depth (State.ofText t))⟩
      (s.max + 1 - s.pos) s

/-- The tokens of running text. -/
def parse (c : Context) (t : Text) : Except Fault (List Token) :=
  outcome (read c (t.length + 1) (State.ofText t))

end Longform.Markdown.Inline
