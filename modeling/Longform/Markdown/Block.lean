import Longform.Markdown.Block.Container

/-! Block structure as tokens. At every line the rules are tried in order; the last, a paragraph,
always reads something. -/
namespace Longform.Markdown.Block

/-- Blocks nest no deeper than this. -/
def maxNesting : Nat := 100

def rules (nested : Nested) : List Rule :=
  [table, code, aside nested, fence, quote nested, thematicBreak, list nested, definition, rawBlock,
    heading, underlined, paragraph]

/-- The first rule that reads a block; a line that no rule reads is left where it is. -/
def tryRules (start stop : Nat) : List Rule → State → Except Fault State
  | [], s => .ok s
  | rule :: rest, s => match rule s start stop with
    | .error e => .error e
    | .ok (some s) => .ok s
    | .ok none => tryRules start stop rest s

/-- Reads blocks from a line on; `sawEmpty` tells whether an empty line was met. -/
def blocksFrom (nested : Nested) (stop : Nat) : Nat → Nat → Bool → State → Except Fault State
  | 0, _, _, s => .ok s
  | fuel + 1, n, sawEmpty, s =>
    if stop ≤ n then .ok s
    else
      let n := s.skipEmpty (s.lineMax - n) n
      let s := s.goTo n
      if stop ≤ n || s.isOutdented n then .ok s
      else if maxNesting ≤ s.level then .ok (s.goTo stop)
      else match tryRules n stop (rules nested) s with
        | .error e => .error e
        | .ok s =>
          let s := s.setTight !sawEmpty
          let n := s.line
          let sawEmpty := sawEmpty || (0 < n && n - 1 < stop && s.isEmpty (n - 1))
          if n < stop && s.isEmpty n then
            blocksFrom nested stop fuel (n + 1) true (s.goTo (n + 1))
          else blocksFrom nested stop fuel n sawEmpty s

/-- Reads the blocks of a range of lines; `depth` bounds how deep they nest. -/
def read : Nat → Nested
  | 0, s, _, stop => .ok (s.goTo stop)
  | depth + 1, s, start, stop => blocksFrom (read depth) stop (stop - start + 1) start false s

/-- The block tokens of a source, and the labels it defines. -/
def parse (t : Text) : Except Fault (List Token × Dictionary Definition) :=
  if t.isEmpty then .ok ([], [])
  else
    let s := State.ofText t
    (read (maxNesting + 2) s 0 s.lineMax).map fun s => (s.tokens.toList, s.definitions)

end Longform.Markdown.Block
