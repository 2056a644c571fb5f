import Longform.Page.Extent
import Longform.Proofs.Footnote.Attachment
import Longform.Proofs.Html.Refusal
import Longform.Proofs.Page.Assembly
import Longform.Proofs.Page.Filling

/-! Why chapters are not put on pages: each fault is traced to the list, the fragments or the markup that
causes it, or to what measures the pages. -/
namespace Longform
namespace Page

/-- The fragments are those of some neighbouring blocks of a rendered chapter. -/
def IsPart (html : Text) (fragments : List Text) : Prop :=
  ∃ bs us, cut html = .ok bs ∧ us <:+: bs ∧ assemble us = .ok fragments

/-- Markup that is refused: together or fragment by fragment. -/
def Unreadable (fragments : List Text) (e : Fault) : Prop :=
  Html.parse (Text.joinLines fragments) = .error e ∨ ∃ f ∈ fragments, Html.parse f = .error e

/-- Why a rendered chapter is not put on pages, whatever measures them: its markup is refused, a numbered
list of it is not counted on, or the fragments of some of its blocks are refused, in which notes are looked
for. -/
inductive Refused (notes : Dictionary Text) (c : Chapter.Rendered) : Fault → Prop
  | markup {e} : Html.parse c.html = .error e → Refused notes c e
  | list {e} : Uncounted c.html e → Refused notes c e
  | part {fragments e} : notes ≠ [] → IsPart c.html fragments → Unreadable fragments e →
      Refused notes c e

/-- A note that some blocks of a rendered chapter refer to is refused. -/
def Unwritten (renderNote : Text → Except Fault Text) (notes : Dictionary Text) (c : Chapter.Rendered)
    (e : Fault) : Prop :=
  ∃ fragments, IsPart c.html fragments ∧
    Footnote.Unwritten renderNote notes (Text.joinLines fragments) e

/-- Why a rendered chapter is not put on pages. -/
inductive Obstacle (s : Setting) (c : Chapter.Rendered) : Fault → Prop
  | refused {e} : Refused s.notes c e → Obstacle s c e
  | note {e} : Unwritten s.renderNote s.notes c e → Obstacle s c e
  | extent {fragments e} : IsPart c.html fragments → s.fits fragments = .error e → Obstacle s c e

theorem Unreadable.cause {fragments : List Text} {e : Fault} (h : Unreadable fragments e) :
    e = .markup ∨ Decimal.TooLong e := by
  rcases h with h | ⟨f,-,h⟩
  · exact Html.parse_error h
  · exact Html.parse_error h

/-- Where lists start with whole numbers, markup is at fault or a number that is too long. -/
theorem Refused.cause {notes : Dictionary Text} {c : Chapter.Rendered} {e : Fault}
    (h : Refused notes c e) (hnum : NumberedLists c.html) : e = .markup ∨ Decimal.TooLong e := by
  cases h with
  | markup hparse => exact Html.parse_error hparse
  | list hcount => exact .inr (hcount.tooLong hnum)
  | part _ _ hunreadable => exact hunreadable.cause

section Notes

theorem linked_error {notes : Dictionary Text} {unit : Int} {t : Text}
    {e : Fault} (h : Footnote.linked notes unit t = .error e) : Html.parse t = .error e := by
  unfold Footnote.linked at h
  rcases hp : Html.parse t with e' | ns <;> rw [hp] at h <;> cases h
  rfl

theorem annotate_error {s : Setting} {index : Nat} {fragments : List Text} {e : Fault}
    (h : annotate s index fragments = .error e) : s.notes ≠ [] ∧ Unreadable fragments e ∨
      Footnote.Unwritten s.renderNote s.notes (Text.joinLines fragments) e := by
  unfold annotate at h
  split at h
  · exact nomatch h
  rename_i hnotes
  have hne : s.notes ≠ [] := by simpa using hnotes
  rcases bind_eq_error_iff.mp h with h | ⟨u,_,h⟩
  · exact (Footnote.attach_error h).imp_left fun hparse => ⟨hne,.inl hparse⟩
  simp only at h
  split at h
  · exact nomatch h
  rcases bind_eq_error_iff.mp h with h | ⟨linked,_,h⟩
  · obtain ⟨f,hf,h⟩ := exists_of_mapM_error h
    exact .inl ⟨hne,.inr ⟨f,hf,linked_error h⟩⟩
  · exact nomatch h

end Notes

section Extent

variable {α : Type} {a : Arithmetic α} {c : Costs α} {e : Fault}

end Extent

section Chapter

variable {s : Setting} {c : Chapter.Rendered} {bs : List Block} {e : Fault}

theorem cut_error {html : Text} (h : cut html = .error e) : Html.parse html = .error e :=
  map_eq_error_iff.mp h

/-- What is asked about neighbouring blocks of a chapter fails for a reason that the chapter has. -/
theorem obstacle_of_asked (hcut : cut c.html = .ok bs) {title : Text}
    (h : Asked (fitBlocks s.fits) (make s title) bs e) : Obstacle s c e := by
  obtain ⟨us,hus,h⟩ := h
  have hpart : ∀ {fragments}, assemble us = .ok fragments → IsPart c.html fragments :=
    fun ha => ⟨bs,us,hcut,hus,ha⟩
  have hassemble : assemble us = .error e → Obstacle s c e := fun h =>
    .refused (.list (uncounted_of_assemble hcut hus h))
  rcases h with h | ⟨i,h⟩
  · rcases bind_eq_error_iff.mp h with h | ⟨fragments,ha,h⟩
    · exact hassemble h
    · exact .extent (hpart ha) h
  rcases bind_eq_error_iff.mp h with h | ⟨fragments,ha,h⟩
  · exact hassemble h
  rcases bind_eq_error_iff.mp h with h | ⟨_,_,h⟩
  · rcases annotate_error h with ⟨hne,hunreadable⟩ | hnote
    · exact .refused (.part hne (hpart ha) hunreadable)
    · exact .note ⟨fragments,hpart ha,hnote⟩
  · cases h

end Chapter
end Page
end Longform
