import Longform.Book
import Longform.Deck
import Longform.Print

/-! The written forms of compiled documents: markup for a document in one piece, JSON for all that
comes in parts. -/
namespace Longform

mutual
/-- Whether a collection in a value holds itself. -/
def Value.holdsItself : Value → Bool
  | .list xs => Value.anyHoldsItself xs
  | .map es => Value.entriesHoldItself es
  | .cycle _ => true
  | _ => false
def Value.anyHoldsItself : List Value → Bool
  | [] => false
  | x :: xs => x.holdsItself || Value.anyHoldsItself xs
def Value.entriesHoldItself : List (Value × Value) → Bool
  | [] => false
  | (_, v) :: es => v.holdsItself || Value.entriesHoldItself es
end

namespace Output

/-- What a source is compiled to. -/
inductive Mode
  | document
  | chapters
  | slides
  | pages
deriving DecidableEq, Repr

def Mode.names : List (Text × Mode) := [("document".toList, .document),
  ("chapters".toList, .chapters), ("slides".toList, .slides), ("pages".toList, .pages)]

def Mode.ofName? (name : Text) : Option Mode := names.lookup name

/-- A record: a mapping with textual keys. -/
def record (fields : List (String × Value)) : Value :=
  .map (fields.map fun (k, v) => (.text k.toList, v))

def texts (ts : List Text) : Value := .list (ts.map .text)

def pieceFields (p : Document.Piece) : List (String × Value) :=
  [("html", .text p.html), ("footnote_ids", texts p.noteIds)]

def ofBook (b : Book) : Value := record [("metadata", .map b.metadata),
  ("chapters", .list (b.chapters.map fun c => record (("title", .text c.title) :: pieceFields c.piece)))]

def ofDeck (d : Deck) : Value := record [("metadata", .map d.metadata),
  ("slides", .list (d.slides.map fun s => record (("index", .int s.number) :: pieceFields s.piece)))]

def ofPage (p : Page) : Value := record [("index", .int p.index),
  ("parity", .text (if Page.isOdd p.index then "odd" else "even").toList),
  ("header_text", .text p.header), ("html", .text p.html), ("footnote_ids", texts p.noteIds)]

def ofPrint (p : Print) : Value := record [("metadata", .map p.metadata),
  ("page_count", .int p.pages.length), ("pages", .list (p.pages.map ofPage))]

def written (room : Nat) (v : Value) : Except Fault Text := v.json .indented room 0

/-- The written form of a copied value. What holds itself or is too deep cannot be copied. -/
def copied (room : Nat) (v : Value) : Except Fault Text :=
  if v.holdsItself || room < v.depth then .error .descent else written room v

/-- Compiles a text and writes the result. -/
def render (mode : Mode) (fits : List Text → Except Fault Bool) (context : Context) (t : Text) :
    Compile Text :=
  match mode with
  | .document => do pure (← Document.compile context t).piece.html
  | .chapters => do Compile.ofExcept (copied context.room (ofBook (← Book.compile context t)))
  | .slides => do Compile.ofExcept (copied context.room (ofDeck (← Deck.compile context t)))
  | .pages => do Compile.ofExcept (written context.room (ofPrint (← Print.compile fits context t)))

end Output
end Longform
