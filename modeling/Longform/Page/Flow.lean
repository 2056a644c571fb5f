import Longform.Chapter
import Longform.Compile
import Longform.Footnote.Unit
import Longform.Page.Block

/-! The flow of chapters onto pages. A page takes blocks as long as they fit; a block that does not
even fit on a page of its own is placed alone. Pages are numbered from one, and the head of an odd
page is the title of its chapter, that of an even page the title of the document. -/
namespace Longform

structure Page where
  index : Nat
  chapterTitle : Text
  header : Text
  blocks : List Page.Block
  fragments : List Text
  noteIds : List Text
  noteList : Text

namespace Page

def html (p : Page) : Text := Text.joinLines p.fragments ++ p.noteList

def isOdd (index : Int) : Bool := index % 2 = 1

/-- The text at the head of the page at an index. -/
def headerAt (index : Int) (chapterTitle documentTitle : Text) : Text :=
  if isOdd index then chapterTitle else documentTitle

variable {α : Type}

/-- Fills pages from the one at `index`, which holds `page` already. A page is finished by `close` as
soon as the next block does not fit on it. -/
def fillFrom (fits : List Block → Except Fault Bool) (close : Nat → List Block → Except Fault α)
    (index : Nat) (page : List Block) : List Block → Compile (List α)
  | [] => do
    if page.isEmpty then pure []
    else
      let p ← Compile.ofExcept (close index page)
      pure [p]
  | b :: bs => do
    if ← Compile.ofExcept (fits (page ++ [b])) then fillFrom fits close index (page ++ [b]) bs
    else if page.isEmpty then do
      Compile.note .oversized
      fillFrom fits close index [b] bs
    else do
      let p ← Compile.ofExcept (close index page)
      if !(← Compile.ofExcept (fits [b])) then Compile.note .oversized
      let rest ← fillFrom fits close (index + 1) [b] bs
      pure (p :: rest)

/-- The blocks of a chapter on pages, the first of them at `index`. -/
def fill (fits : List Block → Except Fault Bool) (close : Nat → List Block → Except Fault α)
    (index : Nat) (bs : List Block) : Compile (List α) := fillFrom fits close index [] bs

/-- What all pages of a document share. -/
structure Setting where
  documentTitle : Text
  /-- Whether fragments fit on a page. -/
  fits : List Text → Except Fault Bool
  notes : Dictionary Text
  renderNote : Text → Except Fault Text

/-- The fragments of a page with their references linked, the notes they refer to, and the list. -/
def annotate (s : Setting) (index : Nat) (fragments : List Text) :
    Except Fault (List Text × List Text × Text) := do
  if s.notes.isEmpty then .ok (fragments, [], [])
  else
    let unit : Int := index - 1
    let u ← Footnote.attach s.renderNote s.notes unit (Text.joinLines fragments)
    let linked ← if u.ids.isEmpty then .ok fragments
      else fragments.mapM (Footnote.linked s.notes unit)
    .ok (linked, u.ids, u.list)

/-- The page at an index, with the notes that it refers to. -/
def make (s : Setting) (chapterTitle : Text) (index : Nat) (bs : List Block) : Except Fault Page := do
  let fragments ← assemble bs
  let (linked, ids, list) ← annotate s index fragments
  .ok ⟨index, chapterTitle, headerAt index chapterTitle s.documentTitle, bs, linked, ids, list⟩

/-- Whether blocks fit on a page together. -/
def fitBlocks (fits : List Text → Except Fault Bool) (bs : List Block) : Except Fault Bool := do
  fits (← assemble bs)

/-- The pages of a chapter, numbered from `index` on. -/
def ofChapter (s : Setting) (index : Nat) (c : Chapter.Rendered) : Compile (List Page) := do
  let bs ← Compile.ofExcept (cut c.html)
  fill (fitBlocks s.fits) (make s c.title) index bs

/-- The pages of chapters, numbered from `index` on. -/
def paginateFrom (s : Setting) : Nat → List Chapter.Rendered → Compile (List Page)
  | _, [] => pure []
  | index, c :: cs => do
    let pages ← ofChapter s index c
    let rest ← paginateFrom s (index + pages.length) cs
    pure (pages ++ rest)

/-- The pages of a document. -/
def paginate (s : Setting) (chapters : List Chapter.Rendered) : Compile (List Page) :=
  paginateFrom s 1 chapters

end Page
end Longform
