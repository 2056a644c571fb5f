import Longform.Markdown.Render
import Longform.Proofs.Attribution.Figure
import Longform.Proofs.Token.Nesting

/-! Figures and quotes in a stream whose quotes are attributed. A quote is marked exactly when one
caption stands behind the closing that matches its opening, so that the elements a document is
written with nest, the figures among them. -/
namespace Longform
namespace Attribution
open Token

section Pairing

/-- Whether a quote is the quote of a figure. -/
def IsMarked (o : Token) : Prop := o.marks.hasKey "attribution".toList = true

/-- A caption, and not two of them, begins the tokens. -/
def Captioned (post : List Token) : Prop :=
  ∃ a i b rest, post = a::i::b::rest ∧ a.kind = "attribution_open" ∧ i.kind = "inline" ∧
    b.kind = "attribution_close" ∧ ∀ t ∈ rest.head?, t.kind ≠ "attribution_open"

/-- `post` stands behind the quote that `o` opens: one caption when the quote is marked, else none. -/
structure Figured (o : Token) (post : List Token) : Prop where
  marked_iff : IsMarked o ↔ Captioned post
  captioned_or : Captioned post ∨ ∀ t ∈ post.head?, t.kind ≠ "attribution_open"

/-- Every quote of a stream has its caption behind the closing that matches its opening. -/
def Paired (us : List Token) : Prop :=
  ∀ pre o inner c post, us = pre ++ o::(inner ++ c::post) → Matches o inner c →
    o.kind = "blockquote_open" → Figured o post

variable {o c : Token} {post xs ys inner : List Token}

theorem isMarked_mark : IsMarked (mark o) := by
  rw [IsMarked,mark,Dictionary.hasKey,Dictionary.find?_set]
  rfl

theorem not_isMarked {level : Int} (h : IsQuote level o c) : ¬IsMarked o :=
  Bool.eq_false_iff.mp h.unmarked

theorem not_captioned (h : ∀ t ∈ post.head?, t.kind ≠ "attribution_open") : ¬Captioned post := by
  rintro ⟨a,i,b,rest,rfl,ha,-⟩
  exact h a rfl ha

theorem figured_of_captioned (ho : IsMarked o) (h : Captioned post) : Figured o post :=
  ⟨iff_of_true ho h,.inl h⟩

theorem figured_of_unmarked (ho : ¬IsMarked o) (h : ∀ t ∈ post.head?, t.kind ≠ "attribution_open") :
    Figured o post :=
  ⟨iff_of_false ho (not_captioned h),.inr h⟩

theorem head?_append (hx : ∀ t ∈ xs.head?, t.kind ≠ "attribution_open")
    (hy : ∀ t ∈ ys.head?, t.kind ≠ "attribution_open") :
    ∀ t ∈ (xs ++ ys).head?, t.kind ≠ "attribution_open" := by
  cases xs with
  | nil => exact hy
  | cons t xs => exact hx

theorem Figured.append (h : Figured o post) (hy : ∀ t ∈ ys.head?, t.kind ≠ "attribution_open") :
    Figured o (post ++ ys) := by
  by_cases ho : IsMarked o
  · obtain ⟨a,i,b,rest,rfl,ha,hi,hb,hrest⟩ := h.marked_iff.mp ho
    exact figured_of_captioned ho ⟨a,i,b,rest ++ ys,rfl,ha,hi,hb,head?_append hrest hy⟩
  · refine figured_of_unmarked ho (head?_append ?_ hy)
    exact h.captioned_or.resolve_left fun hpost => ho (h.marked_iff.mpr hpost)

theorem paired_of_forall_ne (h : ∀ t ∈ xs, t.kind ≠ "blockquote_open") : Paired xs := by
  rintro pre o inner c post rfl - ho
  exact absurd ho (h o (by simp))

theorem Paired.append (hxs : Closed xs) (hx : Paired xs) (hy : Paired ys)
    (hhead : ∀ t ∈ ys.head?, t.kind ≠ "attribution_open") : Paired (xs ++ ys) := by
  intro pre o inner c post happ hmatch ho
  rcases hmatch.of_append hxs happ with ⟨post',hpost,rfl⟩ | ⟨pre',-,hpre⟩
  · exact (hx pre o inner c post' hpost hmatch ho).append hhead
  · exact hy pre' o inner c post hpre hmatch ho

/-- A closed element around paired tokens, with `post` behind it. -/
theorem Paired.enclose (hmatch : Matches o inner c) (hinner : Paired inner)
    (hc : c.kind ≠ "attribution_open") (hpost : ∀ t ∈ c::post, t.kind ≠ "blockquote_open")
    (ho : o.kind = "blockquote_open" → Figured o post) : Paired (o::(inner ++ c::post)) := by
  intro pre o' inner' c' post' happ hmatch' ho'
  rcases hmatch.of_enclose hmatch' happ with ⟨rfl,-,rfl⟩ | ⟨pre',hrest⟩
  · exact ho ho'
  · have hall : Paired (inner ++ c::post) :=
      hinner.append hmatch.inner_closed (paired_of_forall_ne hpost) (by simpa using hc)
    exact hall pre' o' inner' c' post' hrest hmatch' ho'

end Pairing

section Tags

/-- An element of the markup: a figure, the caption in it, or the element of a token. -/
inductive Element
  | figure
  | figcaption
  | of (tag : String)

inductive Tag
  | opening (e : Element)
  | closing (e : Element)

/-- Whether a figure is opened in front of a quote. -/
def opensFigure (t : Token) : Bool :=
  t.kind = "blockquote_open" && (t.marks.find? "attribution".toList).any Value.isTruthy

/-- The tags that a token is written as; those of hidden tokens are left out of the markup. -/
def tags (t : Token) : List Tag :=
  if t.kind = "attribution_open" then [.opening .figcaption]
  else if t.kind = "attribution_close" then [.closing .figcaption,.closing .figure]
  else if t.nesting = 1 then
    if opensFigure t then [.opening .figure,.opening (.of t.tag)] else [.opening (.of t.tag)]
  else if t.nesting = -1 then [.closing (.of t.tag)]
  else []

/-- A tag of a token that stands between `before` and `next`. -/
def Tag.markup (before : Option Token) (t : Token) (next : Option Token) : Tag → Text
  | .opening .figure => "<figure class=\"c-quote\">\n".toList
  | .opening .figcaption => "<figcaption class=\"c-quote__attribution\">".toList
  | .closing .figcaption => "</figcaption>\n".toList
  | .closing .figure => "</figure>\n".toList
  | .opening (.of _) | .closing (.of _) => Markdown.tagMarkup before t next

/-- Quotes and captions are written as their tags. -/
theorem plainMarkup_eq_flatMap_tags {before next : Option Token} {t : Token}
    (h : t.kind = "blockquote_open" ∧ t.nesting = 1 ∨ t.kind = "blockquote_close" ∧ t.nesting = -1 ∨
      t.kind = "attribution_open" ∨ t.kind = "attribution_close") :
    Markdown.plainMarkup before t next = (tags t).flatMap (Tag.markup before t next) := by
  unfold Markdown.plainMarkup tags
  rcases h with ⟨hk,hn⟩ | ⟨hk,hn⟩ | hk | hk
  · rw [opensFigure,hk,hn]
    cases hmark : (t.marks.find? "attribution".toList).any Value.isTruthy
    · exact (List.append_nil _).symm
    · exact congrArg ("<figure class=\"c-quote\">\n".toList ++ ·) (List.append_nil _).symm
  · rw [hk,hn]
    exact (List.append_nil _).symm
  · rw [hk]
    rfl
  · rw [hk]
    rfl

theorem opensFigure_mark {o : Token} (h : o.kind = "blockquote_open") : opensFigure (mark o) = true := by
  rw [opensFigure,mark,Dictionary.find?_set,h]
  rfl

theorem opensFigure_of_not_isMarked {o : Token} (h : o.kind = "blockquote_open" → ¬IsMarked o) :
    opensFigure o = false := by
  rw [opensFigure,Bool.and_eq_false_imp]
  intro hk
  have hnone := h (of_decide_eq_true hk)
  rw [IsMarked,Dictionary.hasKey,Bool.not_eq_true,Option.isSome_eq_false_iff,Option.isNone_iff_eq_none]
    at hnone
  rw [hnone]
  rfl

/-- Every element that is opened is closed, and those opened in it before. -/
inductive Nested : List Tag → Prop
  | nil : Nested []
  | element {e xs ys} : Nested xs → Nested ys → Nested (.opening e::(xs ++ .closing e::ys))

theorem Nested.append {xs ys : List Tag} (hx : Nested xs) (hy : Nested ys) : Nested (xs ++ ys) := by
  induction hx with
  | nil => exact hy
  | element hinner _ _ ih =>
    rw [List.cons_append,List.append_assoc,List.cons_append]
    exact .element hinner ih

theorem Nested.enclose {e : Element} {xs : List Tag} (h : Nested xs) :
    Nested (.opening e::(xs ++ [.closing e])) := .element h .nil

end Tags

section Sound

/-- What holds of blocks whose quotes are attributed, and of such blocks in a row. -/
structure Sound (us : List Token) : Prop where
  closed : Closed us
  paired : Paired us
  nested : Nested (us.flatMap tags)
  head_ne : ∀ t ∈ us.head?, t.kind ≠ "attribution_open"

variable {marker : Text} {level : Int} {xs ys ts us inner kept line : List Token}
  {t o i c po pc : Token}

theorem sound_nil : Sound [] :=
  ⟨closed_nil,paired_of_forall_ne (by simp),.nil,by simp⟩

theorem Sound.append (hx : Sound xs) (hy : Sound ys) : Sound (xs ++ ys) where
  closed := hx.closed.append hy.closed
  paired := hx.paired.append hx.closed hy.paired hy.head_ne
  nested := by
    rw [List.flatMap_append]
    exact hx.nested.append hy.nested
  head_ne := head?_append hx.head_ne hy.head_ne

theorem sound_leaf (hn : t.nesting = 0) (hk : t.kind ∉ reservedKinds) : Sound [t] where
  closed := closed_singleton hn
  paired := paired_of_forall_ne (by simpa using kind_ne hk (by decide))
  nested := by
    have hopen : t.kind ≠ "attribution_open" := kind_ne hk (by decide)
    have hclose : t.kind ≠ "attribution_close" := kind_ne hk (by decide)
    simpa [tags,hn,hopen,hclose] using Nested.nil
  head_ne := by simpa using kind_ne hk (by decide)

/-- An element around blocks, no quote of a figure. -/
theorem Sound.enclose (h : Sound xs) (he : Encloses level o c)
    (ho : o.kind ≠ "attribution_open" ∧ o.kind ≠ "attribution_close")
    (hc : c.kind ≠ "attribution_open" ∧ c.kind ≠ "attribution_close" ∧ c.kind ≠ "blockquote_open")
    (hmark : o.kind = "blockquote_open" → ¬IsMarked o) : Sound (o::(xs ++ [c])) where
  closed := h.closed.enclose he.opens he.closes
  paired := by
    refine Paired.enclose ⟨he.opens,h.closed,he.closes⟩ h.paired hc.1 (by simpa using hc.2.2) ?_
    exact fun hk => figured_of_unmarked (hmark hk) (by simp)
  nested := by
    have hopen : tags o = [.opening (.of o.tag)] := by
      simp [tags,ho,he.opens,opensFigure_of_not_isMarked hmark]
    have hclose : tags c = [.closing (.of o.tag)] := by simp [tags,hc,he.closes,he.tag_eq]
    simpa [hopen,hclose] using h.nested.enclose
  head_ne := by simpa using ho.1

theorem sound_paragraph (hp : IsParagraph level o i c) : Sound [o,i,c] := by
  have htext : Sound [i] := by
    refine sound_leaf hp.text_nesting ?_
    rw [hp.text_kind]
    decide
  refine htext.enclose hp.toEncloses ?_ ?_ fun hk => ?_
  · simp [hp.opening_kind]
  · simp [hp.closing_kind]
  · exact absurd (hp.opening_kind.symm.trans hk) (by decide)

theorem sound_remainder (hp : IsParagraph level po i pc) : Sound (remainder po i pc kept) := by
  unfold remainder
  split
  · exact sound_nil
  · exact sound_paragraph { hp with
      text_kind := hp.text_kind, text_nesting := hp.text_nesting, text_level := hp.text_level }

/-- A quote with its caption. -/
theorem Sound.figure (h : Sound xs) (hq : IsQuote level o c) :
    Sound (mark o::(xs ++ c::figcaption marker i kept line)) where
  closed := by
    have hcaption : Closed (figcaption marker i kept line) :=
      (closed_singleton rfl).enclose rfl rfl
    simpa using (h.closed.enclose (o := mark o) hq.opens hq.closes).append hcaption
  paired := by
    refine Paired.enclose ⟨hq.opens,h.closed,hq.closes⟩ h.paired ?_ ?_ fun _ => ?_
    · rw [hq.closing_kind]
      decide
    · simp [figcaption,caption,hq.closing_kind,make]
    · exact figured_of_captioned isMarked_mark ⟨_,_,_,[],rfl,rfl,rfl,rfl,by simp⟩
  nested := by
    have hopen : tags (mark o) = [.opening .figure,.opening (.of o.tag)] := by
      rw [tags,opensFigure_mark hq.opening_kind]
      simp [mark,hq.opening_kind,hq.opens]
    have hclose : tags c = [.closing (.of o.tag)] := by
      simp [tags,hq.closing_kind,hq.closes,hq.tag_eq]
    have hcaption : (figcaption marker i kept line).flatMap tags =
        [.opening .figcaption,.closing .figcaption,.closing .figure] := rfl
    have hnested : Nested (.opening .figure::((.opening (.of o.tag)::(xs.flatMap tags ++
        .closing (.of o.tag)::(.opening .figcaption::([] ++ [.closing .figcaption])))) ++
        [.closing .figure])) :=
      Nested.enclose (.element h.nested (.enclose .nil))
    simpa [hopen,hclose,hcaption] using hnested
  head_ne := by
    simp [mark,hq.opening_kind]

/-- Attributing the quotes pairs them with their captions. -/
theorem Attributed.sound (h : Attributed marker level ts us) : Sound us := by
  induction h with
  | nil => exact sound_nil
  | leaf _ ht ih => exact ih.append (sound_leaf ht.nesting_eq ht.kind_notMem)
  | paragraph _ hp ih => exact ih.append (sound_paragraph hp)
  | container _ _ hc ih ihinner =>
    have ho : ∀ k ∈ reservedKinds, _ ≠ k := fun k => kind_ne hc.opening_kind
    have hclose : ∀ k ∈ reservedKinds, _ ≠ k := fun k => kind_ne hc.closing_kind
    exact ih.append (ihinner.enclose hc.toEncloses ⟨ho _ (by decide),ho _ (by decide)⟩
      ⟨hclose _ (by decide),hclose _ (by decide),hclose _ (by decide)⟩
      fun hk => absurd hk (ho _ (by decide)))
  | quote _ _ hq _ ih ihinner =>
    refine ih.append (ihinner.enclose hq.toEncloses ?_ ?_ fun _ => not_isMarked hq)
    · simp [hq.opening_kind]
    · simp [hq.closing_kind]
  | figure _ _ hq hp _ _ ih ihfront =>
    exact ih.append ((ihfront.append (sound_remainder hp)).figure hq)

/-- Attributing the quotes of a stream makes figures of the quotes that end with a marked line, one
caption for each, and changes nothing else; the figures nest. -/
theorem attach_pairs_figures (h : Shaped level ts) :
    Attributed marker level ts (attach marker ts) ∧ Paired (attach marker ts) ∧
      Nested ((attach marker ts).flatMap tags) := by
  have hattributed : Attributed marker level ts (attach marker ts) := attributed_attach h
  exact ⟨hattributed,hattributed.sound.paired,hattributed.sound.nested⟩

end Sound

section Example

/-- A quote in a quote. The inner one consists of a marked line, the outer one ends with such a line. -/
def quoteInQuote : List Token :=
  quoteOf 0 (quoteOf 1 (paragraphOf 2 "cite: a".toList [ofText "cite: a".toList]) ++
    paragraphOf 1 "b\ncite: c".toList
      [ofText "b".toList,make "softbreak" "br" 0,ofText "cite: c".toList])

theorem shaped_quoteInQuote : Shaped 0 quoteInQuote :=
  Shaped.nil.quoteOf (Shaped.paragraphOf (Shaped.nil.quoteOf (Shaped.paragraphOf .nil)))

theorem attach_pairs_figures_nested : Shaped 0 quoteInQuote ∧
    (Attributed "cite:".toList 0 quoteInQuote (attach "cite:".toList quoteInQuote) ∧
      Paired (attach "cite:".toList quoteInQuote) ∧
      Nested ((attach "cite:".toList quoteInQuote).flatMap tags)) ∧
    (attach "cite:".toList quoteInQuote).map kind = ["blockquote_open","blockquote_open",
      "blockquote_close","attribution_open","inline","attribution_close","paragraph_open","inline",
      "paragraph_close","blockquote_close","attribution_open","inline","attribution_close"] :=
  ⟨shaped_quoteInQuote,attach_pairs_figures shaped_quoteInQuote,by decide⟩

end Example
end Attribution
end Longform
