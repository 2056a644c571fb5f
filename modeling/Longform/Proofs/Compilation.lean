import Longform.Deck
import Longform.Print
import Longform.Proofs.Markdown.Drawing
import Longform.Proofs.Markdown.Inline
import Longform.Proofs.Page.Pagination
import Longform.Proofs.Source

/-! What a text can be compiled to. Settings and blocks that are malformed have their fallbacks and
end no compilation; each fault that does is traced to the value, the text or the markup that causes
it. -/
namespace Longform

namespace Document

/-- Why a body is not rendered. -/
inductive Obstacle (context : Context) (body : Text) : Fault → Prop
  | blocks : Markdown.Block.parse (Markdown.normalize (Figure.expand body)) = .error .position →
      Obstacle context body .position
  | address : Markdown.parse context.searchPrefix (Figure.expand body) = .error .encoding →
      Obstacle context body .encoding
  | chart {ts own u e} : tokens context body = .ok (ts,own) → Markdown.OccursIn u ts →
      Markdown.Undrawable context.room u e → Obstacle context body e

variable {context : Context}

theorem tokens_error {body : Text} {e : Fault} (h : tokens context body = .error e) :
    Obstacle context body e := by
  have hparse := map_eq_error_iff.mp h
  rcases Markdown.parse_error hparse with ⟨rfl,hblocks⟩ | rfl
  · exact .blocks hblocks
  · exact .address hparse

theorem markup_ends {body : Text} {ts : List Token} {own : Dictionary Text}
    (h : tokens context body = .ok (ts,own)) (abbreviations : Dictionary Text) :
    (markup context abbreviations ts).Ends (fun _ => True) (Obstacle context body) := by
  refine (Markdown.render_ends _ _).mono (fun _ h => h) ?_
  rintro e ⟨u,hu,hundrawable⟩
  exact .chart h (Abbreviation.occursIn_of_replace hundrawable.1 hu) hundrawable

/-- Why a fragment is not given its notes: it is refused, or a note in it has an address that is. -/
inductive Unlinked (context : Context) (s : Source) (fragment : Text) : Fault → Prop
  | markup {e} : Html.parse fragment = .error e → Unlinked context s fragment e
  | note : Footnote.Unwritten (Markdown.renderInline context.searchPrefix) s.notes fragment .encoding →
      Unlinked context s fragment .encoding

end Document

namespace Compilation

/-- Why a text is not compiled: its source is not read, one of the `bodies` in it is not rendered, or
what `later` is done with them fails. -/
inductive Obstacle (context : Context) (t filled : Text) (bodies : Source → List Text)
    (later : Source → Fault → Prop) : Fault → Prop
  | source {e} : Source.Obstacle context.room filled e → Obstacle context t filled bodies later e
  | body {s b e} : (Source.read context t).Gives (.ok s) → b ∈ bodies s →
      Document.Obstacle context b e → Obstacle context t filled bodies later e
  | later {s e} : (Source.read context t).Gives (.ok s) → later s e →
      Obstacle context t filled bodies later e

/-- One of the fragments in which references to notes are looked for is not given its notes. -/
def Unlinked (context : Context) (fragments : Source → List Text → Prop) (s : Source) (e : Fault) : Prop :=
  ∃ fs, fragments s fs ∧ ∃ f ∈ fs, Document.Unlinked context s f e

/-- The markup of a body is one fragment. -/
def Whole (context : Context) (s : Source) (fs : List Text) : Prop :=
  ∃ html, (Document.body context s).Gives (.ok html) ∧ fs = [html]

/-- The fragments are the slides of a body. -/
def Slides (context : Context) (s : Source) (fs : List Text) : Prop :=
  ∃ html, (Document.body context s).Gives (.ok html) ∧ fs = Slide.split html

/-- The fragments are the rendered chapters. -/
def Chapters (context : Context) (s : Source) (fs : List Text) : Prop :=
  ∃ cs, (Book.render context s).Gives (.ok cs) ∧ fs = cs.map (·.html)

/-- Why the chapters of a source are not put on pages. -/
inductive Unpaginated (context : Context) (s : Source) : Fault → Prop
  | title {v e} : Value.field? "title".toList s.settings = some v → v.NoText context.room e →
      Unpaginated context s e
  | refused {cs c e} : (Book.render context s).Gives (.ok cs) → c ∈ cs → Page.Refused s.notes c e →
      Unpaginated context s e
  | note {cs c fragments} : (Book.render context s).Gives (.ok cs) → c ∈ cs →
      Page.IsPart c.html fragments → Footnote.Unwritten (Markdown.renderInline context.searchPrefix)
        s.notes (Text.joinLines fragments) .encoding → Unpaginated context s .encoding
  | measured {cs c fragments f e} : (Book.render context s).Gives (.ok cs) → c ∈ cs →
      Page.IsPart c.html fragments → f ∈ fragments → Html.parse f = .error e → Unpaginated context s e
  | lines {n e} : Page.doubles.lines n Page.defaultCosts.charsPerLine = .error e →
      Unpaginated context s e

variable {context : Context} {t filled : Text}

section Pieces

/-- The chapters of a source are rendered, unless one of them is not. -/
theorem render_ends (s : Source) : (Book.render context s).Ends (fun _ => True)
    fun e => ∃ b ∈ Chapter.sources s.body, Document.Obstacle context b e := by
  have hsource : ∀ c ∈ Chapter.split s.body, c.source ∈ Chapter.sources s.body := fun c hc => by
    obtain ⟨source,hmem,rfl⟩ := List.mem_map.mp hc
    exact hmem
  unfold Book.render
  refine (Compile.ends_ofExcept (fun _ h => h) fun e he => ?_).bind fun parsed _ hparsed => ?_
  · obtain ⟨c,hc,he⟩ := exists_of_mapM_error he
    rcases ht : Document.tokens context c.source with e' | p <;> rw [ht] at he <;> cases he
    exact ⟨c.source,hsource c hc,Document.tokens_error ht⟩
  refine (Compile.ends_mapM (Q := fun _ => True) ?_).mono (fun _ _ => trivial) fun _ h => h
  rintro ⟨title,ts,own⟩ hmem
  obtain ⟨c,hc,htokens⟩ := exists_of_mem_mapM hparsed _ hmem
  rcases ht : Document.tokens context c.source with e' | p <;> rw [ht] at htokens <;> cases htokens
  refine ((Document.markup_ends ht _).mono (fun _ h => h) fun e h => ?_).bind
    fun _ _ _ => Compile.ends_pure trivial
  exact ⟨c.source,hsource c hc,h⟩

end Pieces

section Pages

end Pages

section Outcome

/-- What comes of a text as a document, in chapters, as slides and on pages: a result with the settings
that can be read, or a fault with its cause. A block in a language of its own is drawn or shown as
code, if it is not among the causes. -/
structure Outcome (context : Context) (t filled : Text) : Prop where
  document : (Document.compile context t).Ends (fun d => d.metadata = FrontMatter.settingsOf context.room filled)
    (Obstacle context t filled (fun s => [s.body]) (Unlinked context (Whole context)))
  book : (Book.compile context t).Ends (fun b => b.metadata = FrontMatter.settingsOf context.room filled)
    (Obstacle context t filled (fun s => Chapter.sources s.body) (Unlinked context (Chapters context)))
  deck : (Deck.compile context t).Ends (fun d => d.metadata = FrontMatter.settingsOf context.room filled)
    (Obstacle context t filled (fun s => [s.body]) (Unlinked context (Slides context)))
  print : (Print.compile (Print.estimated Page.defaultCapacity) context t).Ends
    (fun p => p.metadata = FrontMatter.settingsOf context.room filled)
    (Obstacle context t filled (fun s => Chapter.sources s.body) (Unpaginated context))
  fence : ∀ u : Token, u.kind = "fence" → (Markdown.fenceMarkup context.room u).Ends
    (fun x => Markdown.drawing? context.room u = some (.ok x) ∨
      (∀ y, Markdown.drawing? context.room u ≠ some (.ok y)) ∧ x = Markdown.fenceAsCode u)
    (Markdown.Undrawable context.room u)

/-- A document without settings and with this markup. -/
def isPlain (html : Text) : Except Fault Document → Bool
  | .ok d => d.metadata.isEmpty && decide (d.piece.html = html)
  | .error _ => false

end Outcome

section Refused

end Refused
end Compilation
end Longform
