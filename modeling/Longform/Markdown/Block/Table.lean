import Longform.Markdown.Block.Leaf

/-! Tables: a header line, a line that sets the columns off, and rows until something else begins.
Also here: which lines interrupt the block above them. -/
namespace Longform.Markdown.Block

inductive Alignment
  | none
  | left
  | right
  | center
deriving DecidableEq, Repr

/-- The alignment that a column's dashes and colons ask for. -/
def alignment? (t : Text) : Option Alignment :=
  let left := t.head? = some ':'
  let u := if left then t.tail else t
  let right := u.getLast? = some ':'
  let dashes := if right then u.dropLast else u
  if dashes.isEmpty || !dashes.all (· = '-') then Option.none
  else some (if left && right then .center else if right then .right
    else if left then .left else .none)

/-- The alignments of all columns; only the first and last may be empty, and those do not count. -/
def alignmentsFrom : Bool → List Text → Option (List Alignment)
  | _, [] => some []
  | first, c :: r =>
    let t := Text.trim c
    if t.isEmpty then if first || r.isEmpty then alignmentsFrom false r else Option.none
    else match alignment? t, alignmentsFrom false r with
      | some a, some as => some (a :: as)
      | _, _ => Option.none

/-- The cells of a row, cut at bars without a backslash in front; `escaped` tells that there is
one. The backslash of an escaped bar goes away. -/
def cellsFrom : Bool → Text → List Text
  | _, [] => [[]]
  | escaped, c :: r =>
    if c = '|' && !escaped then [] :: cellsFrom false r
    else
      let rest := cellsFrom (c = '\\') r
      let drop := c = '\\' && r.head? = some '|'
      match rest with
      | cell :: cells => (if drop then cell else c :: cell) :: cells
      | [] => [[c]]

/-- The cells of a trimmed row; empty ones at both ends do not count. -/
def cells (t : Text) : List Text :=
  let cs := cellsFrom false t
  let cs := if cs.head? = some [] then cs.tail else cs
  if cs.getLast? = some [] then cs.dropLast else cs

structure Header where
  cells : List Text
  alignments : List Alignment

/-- Whether a line may set columns off: bars, dashes and colons, and a list item it is not. -/
def isDelimiterLine (t : Text) : Bool :=
  let isMark (c : Char) : Bool := c = '|' || c = '-' || c = ':'
  match t with
  | a :: b :: r =>
    isMark a && (isMark b || isGap b) && !(a = '-' && isGap b) && r.all fun c => isMark c || isGap c
  | _ => false

def tableAt? (s : State) (n stop : Nat) : Option Header :=
  if stop < n + 2 || s.isOutdented (n + 1) || s.isCode (n + 1) || !isDelimiterLine (s.lineText (n + 1))
  then Option.none
  else match alignmentsFrom true (Text.splitAt '|' (s.lineText (n + 1))) with
    | Option.none => Option.none
    | some as =>
      let row := Text.trim (s.lineText n)
      if '|' ∉ row || s.isCode n then Option.none
      else
        let cs := cells row
        if cs.isEmpty || cs.length ≠ as.length then Option.none else some ⟨cs, as⟩

/-- Whether a line ends the list above it. -/
def interruptsList (s : State) (n : Nat) : Bool :=
  (asideAt? s n).isSome || (fenceAt? s n).isSome || quoteAt s n || (breakAt? s n).isSome

/-- Whether a line ends the quote or table above it. -/
def interruptsQuote (s : State) (n : Nat) : Except Fault Bool :=
  if interruptsList s n || listAt s n true then .ok true
  else match rawAt? s n with
    | .error e => .error e
    | .ok k =>
      if k.any (·.interrupts) then .ok true
      else (headingAt? s n).map Option.isSome

/-- Whether a line ends the paragraph above it, or the definition that a paragraph begins with. -/
def interruptsText (s : State) (n stop : Nat) : Except Fault Bool :=
  if (tableAt? s n stop).isSome then .ok true else interruptsQuote s n

def cellTokens (tag : String) (a : Alignment) (content : Text) (n : Nat) : List Token :=
  let opening := Token.make (tag ++ "_open") tag 1
  let style (v : String) : Token := opening.withAttr "style" ("text-align:" ++ v).toList
  [match a with
    | .none => opening
    | .left => style "left"
    | .right => style "right"
    | .center => style "center",
    inlineToken (Text.trim content) n (n + 1), Token.make (tag ++ "_close") tag (-1)]

/-- A row with as many cells as there are alignments. -/
def rowTokens (tag : String) (n : Nat) : List Alignment → List Text → List Token
  | [], _ => []
  | a :: as, cs => cellTokens tag a (cs.headD []) n ++ rowTokens tag n as cs.tail

def row (tag : String) (as : List Alignment) (cs : List Text) (n : Nat) : List Token :=
  { Token.make "tr_open" "tr" 1 with map := some (n, n + 1) } :: rowTokens tag n as cs ++
    [Token.make "tr_close" "tr" (-1)]

/-- Rows may not be completed by more cells than this altogether. -/
def maxCompleted : Int := 65536

/-- The rows of a table from line `n` on, with the line after the last. -/
def rowsFrom (s : State) (as : List Alignment) (stop : Nat) :
    Nat → Nat → Int → Except Fault (List Token × Nat)
  | 0, n, _ => .ok ([], n)
  | fuel + 1, n, completed =>
    if stop ≤ n || s.isOutdented n then .ok ([], n)
    else match interruptsQuote s n with
      | .error e => .error e
      | .ok true => .ok ([], n)
      | .ok false =>
        let t := Text.trim (s.lineText n)
        let cs := cells t
        let completed := completed + (as.length - cs.length : Int)
        if t.isEmpty || s.isCode n || maxCompleted < completed then .ok ([], n)
        else match rowsFrom s as stop fuel (n + 1) completed with
          | .error e => .error e
          | .ok (ts, last) => .ok (row "td" as cs n ++ ts, last)

def table : Rule := fun s start stop =>
  match tableAt? s start stop with
  | Option.none => .ok Option.none
  | some h =>
    match rowsFrom (s.under .table) h.alignments stop (stop - start) (start + 2) 0 with
    | .error e => .error e
    | .ok (rows, last) =>
      let body := if rows.isEmpty then [] else
        { Token.make "tbody_open" "tbody" 1 with map := some (start + 2, last) } :: rows ++
          [Token.make "tbody_close" "tbody" (-1)]
      .ok (some ({ s with line := last }.pushAll (
        [{ Token.make "table_open" "table" 1 with map := some (start, last) },
          { Token.make "thead_open" "thead" 1 with map := some (start, start + 1) }] ++
        row "th" h.alignments h.cells start ++
        [Token.make "thead_close" "thead" (-1)] ++ body ++
        [Token.make "table_close" "table" (-1)])))

end Longform.Markdown.Block
