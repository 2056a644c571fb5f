import Longform.Markdown.Inline.State

/-! Emphasis and strikethrough. Delimiters are paired, the texts of paired delimiters become opening
and closing tokens, and texts that stay side by side are joined. -/
namespace Longform.Markdown.Inline

/-- The lower bounds below which no opener is to be sought again, by mark, by whether the closer may
open too, and by its length modulo three. -/
abbrev Bounds := List ((Char × Bool × Nat) × Int)

structure Pairing where
  delimiters : Array Delimiter
  /-- How far back to jump from each delimiter. -/
  jumps : Array Nat
  bounds : Bounds
  /-- The first delimiter of the run at hand. -/
  runStart : Nat
  /-- The token of the delimiter before, if it may continue a run. -/
  lastToken : Option Nat

/-- Whether the rule of three forbids a pair: one of both can open and close, the sum of the lengths
is a multiple of three, and not both lengths are. -/
def isOddPair (opener closer : Delimiter) : Bool :=
  (opener.canClose || closer.canOpen) && (opener.length + closer.length) % 3 = 0 &&
    (opener.length % 3 ≠ 0 || closer.length % 3 ≠ 0)

/-- Goes back from position `i` to the nearest fitting opener above the bound. -/
def findOpener? (p : Pairing) (closer : Delimiter) (bound : Int) : Nat → Int → Option Nat
  | 0, _ => none
  | fuel + 1, i =>
    if i ≤ bound || i < 0 then none
    else
      let n := i.toNat
      let opener := p.delimiters.getD n default
      if opener.mark = closer.mark && opener.canOpen && opener.stop.isNone &&
          !isOddPair opener closer then some n
      else findOpener? p closer bound fuel (i - (p.jumps.getD n 0 + 1 : Nat))

/-- Pairs the delimiter at position `i`, if it closes. -/
def pairOne (p : Pairing) (i : Nat) : Pairing :=
  let closer := p.delimiters.getD i default
  let continues := (p.delimiters.getD p.runStart default).mark = closer.mark &&
    p.lastToken = some (closer.token - 1) && 0 < closer.token
  let p := { p with
    jumps := p.jumps.push 0
    runStart := if continues then p.runStart else i
    lastToken := some closer.token }
  if !closer.canClose then p
  else
    let key := (closer.mark, closer.canOpen, closer.length % 3)
    let bound := (p.bounds.lookup key).getD (-1)
    let start : Int := (p.runStart : Int) - (p.jumps.getD p.runStart 0 : Nat) - 1
    match findOpener? p closer bound (p.delimiters.size + 1) start with
    | some n =>
      let jump := if 0 < n && !(p.delimiters.getD (n - 1) default).canOpen then
        p.jumps.getD (n - 1) 0 + 1 else 0
      { p with
        delimiters := (p.delimiters.modify i fun d => { d with canOpen := false }).modify n
          fun d => { d with stop := some i, canClose := false }
        jumps := (p.jumps.set! i (i - n + jump)).set! n jump
        lastToken := none }
    | none => { p with bounds := (key, start) :: p.bounds }

/-- Pairs the delimiters of one element. -/
def pairAll (ds : Array Delimiter) : Array Delimiter :=
  ((List.range ds.size).foldl pairOne ⟨ds, #[], [], 0, none⟩).delimiters

/-- Turns the text of a delimiter into a tag. -/
def setTag (kind tag : String) (nesting : Int) (markup : Text) (i : Nat) (ts : Array Token) :
    Array Token :=
  ts.modify i fun t =>
    { t with kind := kind, tag := tag, nesting := nesting, markup := markup, content := [] }

def clearText (i : Nat) (ts : Array Token) : Array Token := ts.modify i fun t => { t with content := [] }

/-- Strikethrough for the delimiter at position `i`; gives the position of a lone tilde in front of
the closing tag. -/
def strikeOne (ds : Array Delimiter) (st : Array Token × List Nat) (i : Nat) :
    Array Token × List Nat :=
  let (ts, lone) := st
  match ds[i]? with
  | none => (ts, lone)
  | some d => match if d.mark = '~' then d.stop else none with
    | none => (ts, lone)
    | some stop =>
      let closing := (ds.getD stop default).token
      let ts := setTag "s_close" "s" (-1) "~~".toList closing
        (setTag "s_open" "s" 1 "~~".toList d.token ts)
      let before := ts.getD (closing - 1) default
      (ts, if 0 < closing && before.kind = "text" && before.content = ['~'] then
        (closing - 1) :: lone else lone)

/-- Moves a lone tilde behind the closing tags that follow it. -/
def moveTilde (ts : Array Token) (i : Nat) : Array Token :=
  let closings := ((ts.toList.drop (i + 1)).takeWhile fun t => t.kind = "s_close").length
  if closings = 0 then ts else ts.swapIfInBounds i (i + closings)

def strike (ts : Array Token) (ds : Array Delimiter) : Array Token :=
  let (ts, lone) := (List.range ds.size).foldl (strikeOne ds) (ts, [])
  lone.foldl moveTilde ts

/-- Whether the delimiters at position `i` and before it make one strong pair. -/
def isStrong (ds : Array Delimiter) (i stop : Nat) : Bool :=
  let d := ds.getD i default
  let before := ds.getD (i - 1) default
  0 < i && before.stop = some (stop + 1) && before.mark = d.mark && before.token + 1 = d.token &&
    (ds.getD (stop + 1) default).token = (ds.getD stop default).token + 1

/-- Emphasis for the first `n` delimiters, from the last to the first. -/
def emphasize (ds : Array Delimiter) : Nat → Nat → Array Token → Array Token
  | 0, _, ts => ts
  | _, 0, ts => ts
  | fuel + 1, n + 1, ts =>
    let d := ds.getD n default
    match if d.mark = '_' || d.mark = '*' then d.stop else none with
    | none => emphasize ds fuel n ts
    | some stop =>
      let closing := (ds.getD stop default).token
      if isStrong ds n stop then
        let markup := [d.mark, d.mark]
        let ts := setTag "strong_close" "strong" (-1) markup closing
          (setTag "strong_open" "strong" 1 markup d.token ts)
        emphasize ds fuel (n - 1) (clearText (ds.getD (stop + 1) default).token
          (clearText (ds.getD (n - 1) default).token ts))
      else
        emphasize ds fuel n (setTag "em_close" "em" (-1) [d.mark] closing
          (setTag "em_open" "em" 1 [d.mark] d.token ts))

/-- Sets the level of every token and joins texts that stand side by side. -/
def joinFragments (level : Nat) : List Token → List Token
  | [] => []
  | t :: r =>
    let level := if t.nesting < 0 then level - 1 else level
    let t := { t with level := level }
    let after := if 0 < t.nesting then level + 1 else level
    match joinFragments after r with
    | u :: s =>
      if t.kind = "text" && u.kind = "text" then
        { u with content := t.content ++ u.content } :: s
      else t :: u :: s
    | [] => [t]

/-- The tokens of running text once its delimiters are resolved. -/
def resolve (s : State) : List Token :=
  let lists := s.lists.map pairAll
  let ts := lists.foldl strike s.tokens
  let ts := lists.foldl (fun ts ds => emphasize ds (ds.size + 1) ds.size ts) ts
  joinFragments 0 ts.toList

end Longform.Markdown.Inline
