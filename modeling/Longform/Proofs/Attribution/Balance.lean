import Longform.Proofs.Attribution.Figure
import Longform.Proofs.Token.Balance
import Longform.Proofs.Token.Nesting

/-! When attributing the quotes of a well-formed stream leaves it well formed. The blocks always match
afterwards; the children of a paragraph that is cut match only when the cut lies between inline
elements, not inside of one. -/
namespace Longform
namespace Attribution
open Token

section Cut

/-- Some blocks are the blocks of a quote of a stream. -/
def QuoteIn (ts inner : List Token) : Prop :=
  ∃ pre o c post, ts = pre ++ o::(inner ++ c::post) ∧ Matches o inner c ∧ o.kind = "blockquote_open"

/-- The paragraph at the end of some blocks is cut into what is kept and the caption. -/
def IsCut (marker : Text) (inner kept line : List Token) : Prop :=
  ∃ front o i c, inner = front ++ [o,i,c] ∧ c.kind = "paragraph_close" ∧
    split? marker (i.children.getD []) = some (kept,line)

/-- If the paragraph at the end of some blocks is cut, both sides of the cut are well formed. -/
def CutBalanced (marker : Text) (inner : List Token) : Prop :=
  ∀ kept line, IsCut marker inner kept line → wellFormed kept = true ∧ wellFormed line = true

/-- The cuts of all quotes of a stream are between inline elements. -/
def CutsBalanced (marker : Text) (ts : List Token) : Prop :=
  ∀ inner, QuoteIn ts inner → CutBalanced marker inner

variable {marker : Text} {level : Int} {xs ys inner kept line front : List Token} {o c po i pc : Token}

theorem not_quoteIn (h : ∀ t ∈ xs, t.kind ≠ "blockquote_open") : ¬QuoteIn xs inner := by
  rintro ⟨pre,o,c,post,rfl,-,ho⟩
  exact h o (by simp) ho

theorem quoteIn_append_iff (hxs : Closed xs) :
    QuoteIn (xs ++ ys) inner ↔ QuoteIn xs inner ∨ QuoteIn ys inner := by
  constructor
  · rintro ⟨pre,o,c,post,happ,hmatch,ho⟩
    rcases hmatch.of_append hxs happ with ⟨post',hpost,-⟩ | ⟨pre',-,hpre⟩
    · exact .inl ⟨pre,o,c,post',hpost,hmatch,ho⟩
    · exact .inr ⟨pre',o,c,post,hpre,hmatch,ho⟩
  · rintro (⟨pre,o,c,post,rfl,hquote⟩ | ⟨pre,o,c,post,rfl,hquote⟩)
    · exact ⟨pre,o,c,post ++ ys,by simp,hquote⟩
    · exact ⟨xs ++ pre,o,c,post,by simp,hquote⟩

theorem quoteIn_enclose_iff (hmatch : Matches o xs c) (hc : c.kind ≠ "blockquote_open") :
    QuoteIn (o::(xs ++ [c])) inner ↔
      (o.kind = "blockquote_open" ∧ inner = xs) ∨ QuoteIn xs inner := by
  have hclosing : ¬QuoteIn [c] inner := not_quoteIn (by simpa using hc)
  constructor
  · rintro ⟨pre,o',c',post,heq,hmatch',ho⟩
    rcases hmatch.of_enclose hmatch' heq with ⟨rfl,rfl,-⟩ | ⟨pre',hrest⟩
    · exact .inl ⟨ho,rfl⟩
    · have hquote : QuoteIn (xs ++ [c]) inner := ⟨pre',o',c',post,hrest,hmatch',ho⟩
      exact .inr (((quoteIn_append_iff hmatch.inner_closed).mp hquote).resolve_right hclosing)
  · rintro (⟨ho,rfl⟩ | ⟨pre,o',c',post,rfl,hquote⟩)
    · exact ⟨[],o,c,[],rfl,hmatch,ho⟩
    · exact ⟨o::pre,o',c',post ++ [c],by simp,hquote⟩

theorem cutsBalanced_of_forall_ne (h : ∀ t ∈ xs, t.kind ≠ "blockquote_open") :
    CutsBalanced marker xs := fun _ hquote => absurd hquote (not_quoteIn h)

theorem cutsBalanced_paragraph (hp : IsParagraph level o i c) : CutsBalanced marker [o,i,c] :=
  cutsBalanced_of_forall_ne (by simp [hp.opening_kind,hp.text_kind,hp.closing_kind])

theorem cutsBalanced_append_iff (hxs : Closed xs) :
    CutsBalanced marker (xs ++ ys) ↔ CutsBalanced marker xs ∧ CutsBalanced marker ys := by
  simp only [CutsBalanced,quoteIn_append_iff hxs,or_imp,forall_and]

theorem cutsBalanced_enclose_iff (hmatch : Matches o xs c) (hc : c.kind ≠ "blockquote_open") :
    CutsBalanced marker (o::(xs ++ [c])) ↔
      (o.kind = "blockquote_open" → CutBalanced marker xs) ∧ CutsBalanced marker xs := by
  simp only [CutsBalanced,quoteIn_enclose_iff hmatch hc,or_imp,forall_and,and_imp]
  refine and_congr_left fun _ => ⟨fun h ho => h xs ho rfl,?_⟩
  rintro h _ ho rfl
  exact h ho

/-- Blocks that do not end with a marked line are not cut. -/
theorem cutBalanced_of_not_endsMarked (h : ¬EndsMarked marker xs) : CutBalanced marker xs := by
  rintro kept line ⟨front,o,i,c,happ,hc,hsplit⟩
  obtain ⟨before,first,rest,hfirst,-⟩ := exists_firstMarked hsplit
  exact absurd ⟨front,o,i,c,before,_,happ,hc,hfirst.eq_append,hfirst.marked⟩ h

theorem cutBalanced_iff (hpc : pc.kind = "paragraph_close")
    (hsplit : split? marker (i.children.getD []) = some (kept,line)) :
    CutBalanced marker (front ++ [po,i,pc]) ↔ wellFormed kept = true ∧ wellFormed line = true := by
  refine ⟨fun h => h kept line ⟨front,po,i,pc,rfl,hpc,hsplit⟩,?_⟩
  rintro h kept' line' ⟨front',o',i',c',happ,-,hsplit'⟩
  obtain ⟨-,hpair⟩ := List.append_inj' happ rfl
  cases hpair
  cases hsplit.symm.trans hsplit'
  exact h

end Cut

section Balance

variable {marker : Text} {level : Int} {ts us xs ys inner kept line : List Token} {o c po i pc t : Token}

/-- The children of all tokens are well formed. -/
def ChildrenWellFormed (ts : List Token) : Prop := ∀ t ∈ ts, wellFormed (t.children.getD []) = true

theorem childrenWellFormed_append :
    ChildrenWellFormed (xs ++ ys) ↔ ChildrenWellFormed xs ∧ ChildrenWellFormed ys :=
  List.forall_mem_append

theorem childrenWellFormed_cons : ChildrenWellFormed (t::xs) ↔
    wellFormed (t.children.getD []) = true ∧ ChildrenWellFormed xs := List.forall_mem_cons

theorem childrenWellFormed_remainder (hpo : wellFormed (po.children.getD []) = true)
    (hpc : wellFormed (pc.children.getD []) = true) :
    ChildrenWellFormed (remainder po i pc kept) ↔ wellFormed kept = true := by
  cases kept with
  | nil => exact iff_of_true (fun _ h => nomatch h) rfl
  | cons t kept => simp [remainder,ChildrenWellFormed,hpo,hpc]

theorem childrenWellFormed_figcaption :
    ChildrenWellFormed (figcaption marker i kept line) ↔ wellFormed line = true := by
  have hempty : wellFormed [] = true := rfl
  simp [figcaption,caption,ChildrenWellFormed,make,hempty]

/-- The blocks of a stream match also when its quotes are attributed. -/
theorem Attributed.neutral (h : Attributed marker level ts us) : Neutral us := by
  induction h with
  | nil => exact neutral_nil
  | leaf _ ht ih => exact ih.append (neutral_singleton ht.nesting_eq)
  | paragraph _ hp ih => exact ih.append (hp.neutral (neutral_singleton hp.text_nesting))
  | container _ _ hc ih ihinner => exact ih.append (hc.neutral ihinner)
  | quote _ _ hq _ ih ihinner => exact ih.append (hq.neutral ihinner)
  | @figure level ts us front front' o c po i pc before first rest kept _ _ hq hp _ _ ih ihfront =>
    have hremainder : Neutral (remainder po i pc kept) := by
      unfold remainder
      split
      · exact neutral_nil
      · exact hp.neutral (neutral_singleton hp.text_nesting)
    have hquote : Neutral (mark o::((front' ++ remainder po i pc kept) ++ [c])) :=
      (ihfront.append hremainder).enclose hq.opens hq.closes hq.tag_eq
    have hcaption : Neutral (figcaption marker i kept (captionChildren marker first rest)) :=
      (neutral_singleton rfl).enclose rfl rfl rfl
    simpa using ih.append (hquote.append hcaption)

theorem Attributed.shaped (h : Attributed marker level ts us) : Shaped level ts := by
  induction h with
  | nil => exact .nil
  | leaf _ ht ih => exact .leaf ih ht
  | paragraph _ hp ih => exact .paragraph ih hp
  | container _ _ hc ih ihinner => exact .container ih ihinner hc
  | quote _ _ hq _ ih ihinner => exact .quote ih ihinner hq
  | figure _ _ hq hp _ _ ih ihfront => exact .quote ih (.paragraph ihfront hp) hq

/-- An element whose blocks change keeps its own tokens. -/
theorem childrenWellFormed_enclose (ho : wellFormed (o.children.getD []) = true)
    (hc : wellFormed (c.children.getD []) = true) :
    ChildrenWellFormed (o::(xs ++ [c])) ↔ ChildrenWellFormed xs := by
  simp [ChildrenWellFormed,or_imp,forall_and,ho,hc]

/-- The children of all tokens stay well formed exactly when every cut is between inline elements. -/
theorem Attributed.childrenWellFormed_iff (h : Attributed marker level ts us)
    (hts : ChildrenWellFormed ts) : ChildrenWellFormed us ↔ CutsBalanced marker ts := by
  induction h with
  | nil => exact iff_of_true hts (cutsBalanced_of_forall_ne (by simp))
  | leaf hus ht ih =>
    rw [childrenWellFormed_append] at hts ⊢
    rw [cutsBalanced_append_iff hus.shaped.closed,ih hts.1]
    refine and_congr_right fun _ => iff_of_true hts.2 (cutsBalanced_of_forall_ne ?_)
    simpa using kind_ne ht.kind_notMem (by decide)
  | paragraph hus hp ih =>
    rw [childrenWellFormed_append] at hts ⊢
    rw [cutsBalanced_append_iff hus.shaped.closed,ih hts.1]
    exact and_congr_right fun _ => iff_of_true hts.2 (cutsBalanced_paragraph hp)
  | container hus hinner hc ih ihinner =>
    simp only [childrenWellFormed_append,childrenWellFormed_cons] at hts
    obtain ⟨hts,ho,hxs,hclose,-⟩ := hts
    rw [childrenWellFormed_append,cutsBalanced_append_iff hus.shaped.closed,ih hts,
      childrenWellFormed_enclose ho hclose,ihinner hxs,cutsBalanced_enclose_iff
        (hc.matches hinner.shaped.closed) (kind_ne hc.closing_kind (by decide))]
    have hquote : _ ≠ "blockquote_open" := kind_ne hc.opening_kind (by decide)
    exact and_congr_right fun _ => (and_iff_right fun hk => absurd hk hquote).symm
  | quote hus hinner hq hends ih ihinner =>
    simp only [childrenWellFormed_append,childrenWellFormed_cons] at hts
    obtain ⟨hts,ho,hxs,hclose,-⟩ := hts
    rw [childrenWellFormed_append,cutsBalanced_append_iff hus.shaped.closed,ih hts,
      childrenWellFormed_enclose ho hclose,ihinner hxs,cutsBalanced_enclose_iff
        (hq.matches hinner.shaped.closed) (by simp [hq.closing_kind])]
    have hcut := cutBalanced_of_not_endsMarked hends
    exact and_congr_right fun _ => (and_iff_right fun _ => hcut).symm
  | figure hus hfront hq hp hfirst hkept ih ihfront =>
    simp only [childrenWellFormed_append,childrenWellFormed_cons] at hts
    obtain ⟨hts,ho,⟨hxs,hpo,hi,hpc,-⟩,hclose,-⟩ := hts
    subst hkept
    have hparagraph := Shaped.paragraph hfront.shaped hp
    rw [childrenWellFormed_append,childrenWellFormed_cons,childrenWellFormed_append,
      childrenWellFormed_append,childrenWellFormed_cons,childrenWellFormed_remainder hpo hpc,
      childrenWellFormed_figcaption,cutsBalanced_append_iff hus.shaped.closed,ih hts,ihfront hxs,
      cutsBalanced_enclose_iff (hq.matches hparagraph.closed) (by simp [hq.closing_kind]),
      cutsBalanced_append_iff hfront.shaped.closed,
      cutBalanced_iff hp.closing_kind hfirst.split?_eq_some]
    have hblock : CutsBalanced marker _ := cutsBalanced_paragraph hp
    have hmark : wellFormed ((mark _).children.getD []) = true := ho
    simp only [hq.opening_kind,hblock,hmark,hclose,captionChildren,true_and,and_true,true_imp_iff]
    exact and_congr_right fun _ => and_assoc.trans and_comm

/-- Attributing the quotes of a well-formed stream leaves it well formed exactly when every cut is
between inline elements. -/
theorem wellFormed_attach_iff (h : Shaped level ts) (hts : wellFormed ts = true) :
    wellFormed (attach marker ts) = true ↔ CutsBalanced marker ts := by
  have hattributed : Attributed marker level ts (attach marker ts) := attributed_attach h
  rw [hattributed.neutral.wellFormed_iff]
  exact hattributed.childrenWellFormed_iff (h.neutral.wellFormed_iff.mp hts)

end Balance

section Example

/-- A quote of two lines, the second of them marked. The first line begins an emphasis. -/
def emphasizedQuote (content : Text) (between behind : List Token) : List Token :=
  quoteOf 0 (paragraphOf 1 content (make "em_open" "em" 1::ofText "foo".toList::
    (between ++ make "softbreak" "br" 0::ofText "cite: bar".toList::behind)))

theorem shaped_emphasizedQuote (content : Text) (between behind : List Token) :
    Shaped 0 (emphasizedQuote content between behind) :=
  Shaped.nil.quoteOf (Shaped.paragraphOf .nil)

theorem wellFormed_attach_iff_between :
    let ts := emphasizedQuote "*foo*\ncite: bar".toList [make "em_close" "em" (-1)] []
    Shaped 0 ts ∧ wellFormed ts = true ∧ wellFormed (attach "cite:".toList ts) = true ∧
      CutsBalanced "cite:".toList ts :=
  ⟨shaped_emphasizedQuote _ _ _,by decide,by decide,
    (wellFormed_attach_iff (shaped_emphasizedQuote _ _ _) (by decide)).mp (by decide)⟩

/-- A cut inside of an emphasis leaves its opening in the quote and its closing in the caption. -/
theorem wellFormed_attach_false :
    let ts := emphasizedQuote "*foo\ncite: bar*".toList [] [make "em_close" "em" (-1)]
    Shaped 0 ts ∧ wellFormed ts = true ∧ wellFormed (attach "cite:".toList ts) = false :=
  ⟨shaped_emphasizedQuote _ _ _,by decide,by decide⟩

end Example
end Attribution
end Longform
