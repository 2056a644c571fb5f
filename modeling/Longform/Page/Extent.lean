import Longform.Html.Parse

/-! How much of a page fragments take, estimated in lines of text. The estimate is made in any kind
of numbers. -/
namespace Longform.Page

/-- Numbers to measure with. -/
structure Arithmetic (α : Type) where
  zero : α
  add : α → α → α
  /-- A number several times. -/
  times : α → Nat → α
  /-- How many lines of a length some characters take, the last counted whole. -/
  lines : Nat → α → Except Fault α

/-- What counts for how much: the length of a line, and the extra cost of blocks and images. -/
structure Costs (α : Type) where
  charsPerLine : α
  blockCost : α
  imageLines : α

/-- Elements that count as blocks. -/
def blockNames : List Text := ["p", "h1", "h2", "h3", "h4", "h5", "h6", "li", "pre", "blockquote",
  "figure", "table", "tr", "aside", "div", "dl", "dt", "dd", "hr"].map String.toList

def isBlockName (name : Text) : Bool := Text.isOneOf name blockNames

/-- The lines of a text that are not blank, without the blanks around them. -/
def fullLines (t : Text) : List Text := ((Text.lines t).map Text.trim).filter fun l => !l.isEmpty

variable {α : Type}

/-- Adds the lines that some texts take. -/
def addLines (a : Arithmetic α) (c : Costs α) : α → List Text → Except Fault α
  | total, [] => .ok total
  | total, l :: ls => match a.lines l.length c.charsPerLine with
    | .error e => .error e
    | .ok n => addLines a c (a.add total n) ls

/-- Adds what some nodes take: their lines, their blocks and their images. -/
def addNodes (a : Arithmetic α) (c : Costs α) (total : α) (ns : List Html.Node) : Except Fault α :=
  (addLines a c total (fullLines (Html.shownText ns))).map fun total =>
    a.add (a.add total (a.times c.blockCost (Html.Node.countAll isBlockName ns)))
      (a.times c.imageLines (Html.Node.countAll (· = "img".toList) ns))

def estimateFrom (a : Arithmetic α) (c : Costs α) : α → List Text → Except Fault α
  | total, [] => .ok total
  | total, f :: fs => do
    let ns ← Html.parse f
    let total ← addNodes a c total ns
    estimateFrom a c total fs

/-- The extent of some fragments. -/
def estimate (a : Arithmetic α) (c : Costs α) (fragments : List Text) : Except Fault α :=
  estimateFrom a c a.zero fragments

/-- Measuring in double precision. -/
def doubles : Arithmetic Float where
  zero := 0.0
  add x y := x + y
  times x n := x * n.toFloat
  lines n x :=
    if x == 0.0 then .error .divisionByZero
    else
      let q := n.toFloat / x
      if q.isNaN then .error .notANumber
      else if q.isInf then .error .infinite
      else .ok q.ceil

def defaultCosts : Costs Float := ⟨72.0, 1.0, 8.0⟩

def defaultCapacity : Float := 40.0

/-- Whether fragments do not take more than a page holds. Nothing fits into a capacity that is no
number. -/
def fitsIn [LE α] [DecidableLE α] (measure : List Text → Except Fault α) (capacity : α)
    (fragments : List Text) : Except Fault Bool :=
  (measure fragments).map fun extent => extent ≤ capacity

end Longform.Page
