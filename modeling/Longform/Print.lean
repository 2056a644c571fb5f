import Longform.Book
import Longform.Page.Extent
import Longform.Page.Flow

/-! Documents on pages. Even pages are headed by the title among the settings. -/
namespace Longform

structure Print where
  metadata : FrontMatter.Metadata
  pages : List Page

namespace Print

/-- The title among the settings, empty without one. -/
def titleOf (room : Nat) (metadata : FrontMatter.Metadata) : Except Fault Text :=
  ((Value.field? "title".toList metadata).getD (.text [])).stringify room

/-- Compiles a text on pages that hold what `fits`. -/
def compile (fits : List Text → Except Fault Bool) (context : Context) (t : Text) :
    Compile Print := do
  let s ← Source.read context t
  let chapters ← Book.render context s
  let title ← Compile.ofExcept (titleOf context.room s.settings)
  let pages ← Page.paginate ⟨title, fits, s.notes, Markdown.renderInline context.searchPrefix⟩ chapters
  pure ⟨s.settings, pages⟩

/-- Pages of a capacity in estimated lines. -/
def estimated (capacity : Float) : List Text → Except Fault Bool :=
  Page.fitsIn (Page.estimate Page.doubles Page.defaultCosts) capacity

end Print
end Longform
