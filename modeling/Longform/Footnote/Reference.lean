import Longform.Footnote.Definition
import Longform.Html.Node

/-! Footnote references `[^id]` in the texts of a tree. Text in code, scripts and styles is literal
and holds none. -/
namespace Longform.Footnote
open Html

/-- The id of a reference that a text begins with, and what follows it. -/
def reference? (t : Text) : Option (Text × Text) :=
  match Text.after? "[^".toList t with
  | none => none
  | some r => (Text.cutAt ']' r).filter fun (id, _) => !id.isEmpty

/-- A text cut at its references to known notes. -/
inductive Piece
  | plain (t : Text)
  | reference (id : Text)
deriving DecidableEq, Repr

/-- Puts a text in front of pieces. -/
def prepend (t : Text) : List Piece → List Piece
  | .plain u :: ps => .plain (t ++ u) :: ps
  | ps => if t.isEmpty then ps else .plain t :: ps

/-- Cuts a text at its references to notes that `known` holds; other references are text. -/
def piecesFrom (known : Text → Bool) : Nat → Text → List Piece
  | 0, t => prepend t []
  | _, [] => []
  | fuel + 1, c :: r => match reference? (c :: r) with
    | some (id, rest) =>
      if known id then .reference id :: piecesFrom known fuel rest
      else prepend ("[^".toList ++ id ++ [']']) (piecesFrom known fuel rest)
    | none => prepend [c] (piecesFrom known fuel r)

def pieces (known : Text → Bool) (t : Text) : List Piece := piecesFrom known t.length t

def Piece.id? : Piece → Option Text
  | .plain _ => none
  | .reference id => some id

/-- Elements whose text is literal. -/
def isLiteral (name : Text) : Bool := Text.isOneOf name (["code", "pre", "script", "style"].map String.toList)

mutual
/-- The known ids that a node refers to, in order. -/
def occurrences (known : Text → Bool) : Node → List Text
  | .text _ t => (pieces known t).filterMap Piece.id?
  | .element name _ children => if isLiteral name then [] else occurrencesAll known children
def occurrencesAll (known : Text → Bool) : List Node → List Text
  | [] => []
  | n :: ns => occurrences known n ++ occurrencesAll known ns
end

/-- The anchor of a reference in a unit. -/
def referenceAnchor (unit : Int) (id : Text) : Text :=
  "fn-ref-".toList ++ Text.ofInt unit ++ '-' :: id

/-- The anchor of a note in the list of a unit. -/
def noteAnchor (unit : Int) (id : Text) : Text := "fn-def-".toList ++ Text.ofInt unit ++ '-' :: id

/-- The raised link to a note. -/
def link (unit : Int) (id : Text) : Node :=
  .element "sup".toList [("class".toList, "footnote-ref".toList)] [
    .element "a".toList [("href".toList, '#' :: noteAnchor unit id),
      ("id".toList, referenceAnchor unit id)] [.text .shown ('[' :: id ++ [']'])]]

def Piece.node (unit : Int) : Piece → Node
  | .plain t => .text .shown t
  | .reference id => link unit id

/-- A text with its references linked; a text without stays as it is. -/
def linkText (known : Text → Bool) (unit : Int) (kind : TextKind) (t : Text) : List Node :=
  let ps := pieces known t
  if (ps.filterMap Piece.id?).isEmpty then [.text kind t] else ps.map (Piece.node unit)

mutual
/-- A node with its references linked. -/
def linkNode (known : Text → Bool) (unit : Int) : Node → List Node
  | .text kind t => linkText known unit kind t
  | .element name attrs children =>
    [.element name attrs (if isLiteral name then children else linkAll known unit children)]
def linkAll (known : Text → Bool) (unit : Int) : List Node → List Node
  | [] => []
  | n :: ns => linkNode known unit n ++ linkAll known unit ns
end

end Longform.Footnote
