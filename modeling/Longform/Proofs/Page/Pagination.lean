import Mathlib.Data.List.Forall2
import Longform.Page.Extent
import Longform.Proofs.Page.Obstacle

/-! The pages of several chapters. Chapters follow each other on pages of their own, numbered through
from one, and each block of a chapter stands on one of its pages, in order. Only markup and notes that are
refused and numbers that are too long keep chapters from their pages. -/
namespace Longform
namespace Page

/-- These pages, and no others, hold the chapter. -/
structure IsChapter (documentTitle : Text) (c : Chapter.Rendered) (pages : List Page) : Prop where
  blocks : cut c.html = .ok (pages.flatMap (·.blocks))
  occupied : ∀ p ∈ pages, p.blocks ≠ []
  title : ∀ p ∈ pages, p.chapterTitle = c.title
  header : ∀ p ∈ pages, p.header = if p.index % 2 = 1 then c.title else documentTitle

/-- A chapter without blocks is on no page. -/
theorem IsChapter.eq_nil {documentTitle : Text} {c : Chapter.Rendered} {pages : List Page}
    (h : IsChapter documentTitle c pages) (hcut : cut c.html = .ok []) : pages = [] := by
  have hblocks : [] = pages.flatMap (·.blocks) := Except.ok.inj (hcut.symm.trans h.blocks)
  cases pages with
  | nil => rfl
  | cons p pages =>
    have hp : p.blocks = [] := (List.append_eq_nil_iff.mp hblocks.symm).1
    exact absurd hp (h.occupied p (by simp))

section Make

variable {s : Setting} {title : Text} {index : Nat} {bs : List Block}

theorem make_ok {p : Page} (h : make s title index bs = .ok p) :
    p.index = index ∧ p.blocks = bs ∧ p.chapterTitle = title ∧
      p.header = if index % 2 = 1 then title else s.documentTitle := by
  obtain ⟨fragments,_,h⟩ := bind_eq_ok_iff.mp h
  obtain ⟨⟨linked,ids,list⟩,_,h⟩ := bind_eq_ok_iff.mp h
  cases h
  refine ⟨rfl,rfl,rfl,?_⟩
  have hodd : ((index : Int) % 2 = 1) ↔ index % 2 = 1 := by omega
  simp only [headerAt,isOdd,decide_eq_true_eq,hodd]

/-- Pages finished one after the other are numbered on, and each holds what was put on it. -/
theorem make_all_ok {pages : List (List Block)} {ps : List Page}
    (h : ((pages.zipIdx index).mapM fun (us,i) => make s title i us) = .ok ps) :
    ps.map (·.blocks) = pages ∧ ps.map (·.index) = List.range' index ps.length ∧
      ∀ p ∈ ps, p.chapterTitle = title ∧
        p.header = if p.index % 2 = 1 then title else s.documentTitle := by
  induction pages generalizing index ps with
  | nil =>
    cases h
    simp
  | cons us pages ih =>
    rw [List.zipIdx_cons,List.mapM_cons] at h
    obtain ⟨p,hp,h⟩ := bind_eq_ok_iff.mp h
    obtain ⟨ps,hps,h⟩ := bind_eq_ok_iff.mp h
    cases h
    obtain ⟨hindex,hblocks,htitle,hheader⟩ := make_ok hp
    obtain ⟨hmap,hrange,hall⟩ := ih hps
    refine ⟨by simp [hblocks,hmap],by simp [hindex,hrange,List.range'_succ],?_⟩
    intro q hq
    rcases List.mem_cons.mp hq with rfl | hq
    · exact ⟨htitle,hindex ▸ hheader⟩
    · exact hall q hq

end Make

section Document

variable (s : Setting)

/-- A chapter is put on pages of its own that are numbered on, unless something about it keeps it from
that. -/
theorem ofChapter_ends (index : Nat) (c : Chapter.Rendered) : (ofChapter s index c).Ends
    (fun ps => IsChapter s.documentTitle c ps ∧ ps.map (·.index) = List.range' index ps.length)
    (Obstacle s c) := by
  unfold ofChapter
  rcases hcut : cut c.html with e | bs
  · exact .inr ⟨e,(Compile.gives_ofExcept rfl).bind_error,.refused (.markup (cut_error hcut))⟩
  refine .of_ok (Compile.gives_ofExcept rfl) ?_
  refine (fillFrom_ends (fitBlocks s.fits) (make s c.title) index [] bs).mono ?_
    fun e => obstacle_of_asked hcut
  rintro ps ⟨pages,hf,hm⟩
  obtain ⟨hmap,hrange,hall⟩ := make_all_ok hm
  refine ⟨⟨?_,?_,fun p hp => (hall p hp).1,fun p hp => (hall p hp).2⟩,hrange⟩
  · have hflat := hf.flatten
    rw [← hmap] at hflat
    rw [hcut,List.flatMap,hflat]
    rfl
  · intro p hp
    exact hf.ne_nil _ (hmap ▸ List.mem_map_of_mem hp)

/-- Chapters are put on pages one behind the other. -/
theorem paginateFrom_ends (index : Nat) (cs : List Chapter.Rendered) : (paginateFrom s index cs).Ends
    (fun ps => ∃ parts : List (List Page), ps = parts.flatten ∧
      List.Forall₂ (IsChapter s.documentTitle) cs parts ∧
      ps.map (·.index) = List.range' index ps.length)
    fun e => ∃ c ∈ cs, Obstacle s c e := by
  induction cs generalizing index with
  | nil => exact Compile.ends_pure ⟨[],rfl,.nil,rfl⟩
  | cons c cs ih =>
    rw [paginateFrom]
    refine ((ofChapter_ends s index c).mono (fun _ h => h) fun e he => ?_).bind
      fun ps _ ⟨hc,hrange⟩ => ?_
    · exact ⟨c,by simp,he⟩
    refine ((ih _).mono (fun _ h => h) fun e he => ?_).bind fun rest _ hrest => Compile.ends_pure ?_
    · obtain ⟨d,hd,he⟩ := he
      exact ⟨d,by simp [hd],he⟩
    · obtain ⟨parts,rfl,hcs,hranges⟩ := hrest
      refine ⟨ps::parts,rfl,.cons hc hcs,?_⟩
      rw [List.map_append,hrange,hranges,List.length_append,List.range'_append_1]

/-- Pages are numbered from one. Those of a chapter follow each other, hold its blocks in order and
nothing else, and are headed by its title and that of the document in turn. A document has no pages
only when the reader of markup refuses a part of it, when a list of it has a number that is too long, or
when a note is not rendered. -/
theorem paginate_keeps_chapters {α : Type} [LE α] [DecidableLE α] (measure : List Text → α)
    (capacity : α) (documentTitle : Text) (notes : Dictionary Text)
    (renderNote : Text → Except Fault Text) (cs : List Chapter.Rendered) (hnum : ∀ c ∈ cs, NumberedLists c.html) :
    let s : Setting :=
      ⟨documentTitle,fitsIn (fun fragments => .ok (measure fragments)) capacity,notes,renderNote⟩
    (∃ parts : List (List Page), (paginate s cs).Gives (.ok parts.flatten) ∧
      parts.flatten.map (·.index) = List.range' 1 parts.flatten.length ∧
      List.Forall₂ (fun c ps => IsChapter documentTitle c ps ∧ (cut c.html = .ok [] → ps = []))
        cs parts) ∨
    ∃ e, (paginate s cs).Gives (.error e) ∧ ∃ c ∈ cs,
      Refused notes c e ∧ (e = .markup ∨ Decimal.TooLong e) ∨ Unwritten renderNote notes c e := by
  intro s
  rcases paginateFrom_ends s 1 cs with ⟨ps,hgives,parts,rfl,hcs,hrange⟩ | ⟨e,hgives,c,hc,hobstacle⟩
  · exact .inl ⟨parts,hgives,hrange,hcs.imp fun _ _ hc => ⟨hc,hc.eq_nil⟩⟩
  · cases hobstacle with
    | refused h => exact .inr ⟨e,hgives,c,hc,.inl ⟨h,h.cause (hnum c hc)⟩⟩
    | note h => exact .inr ⟨e,hgives,c,hc,.inr h⟩
    | extent _ hfits => exact nomatch hfits

/-- A list counted on from three and a chapter without blocks. -/
theorem paginate_keeps_chapters_two :
    let cs : List Chapter.Rendered :=
      [⟨"A".toList,"<ol start=\"3\"><li>x</li><li>y</li></ol>".toList⟩,⟨"B".toList,[]⟩]
    let s : Setting := ⟨"D".toList,fitsIn (fun fragments => .ok fragments.length) 0,[],.ok⟩
    (∀ c ∈ cs, NumberedLists c.html) ∧
      ∃ parts : List (List Page), (paginate s cs).Gives (.ok parts.flatten) ∧
        parts.flatten.map (·.index) = List.range' 1 parts.flatten.length ∧
        List.Forall₂ (fun c ps => IsChapter "D".toList c ps ∧ (cut c.html = .ok [] → ps = []))
          cs parts := by
  intro cs s
  have hlist : Html.parse "<ol start=\"3\"><li>x</li><li>y</li></ol>".toList =
      .ok [.element "ol".toList [("start".toList,"3".toList)]
        [.element "li".toList [] [.text .shown "x".toList],
          .element "li".toList [] [.text .shown "y".toList]]] := by rfl
  have hnone : Html.parse [] = .ok [] := by rfl
  have hnum : ∀ c ∈ cs, NumberedLists c.html := by
    intro c hc ns hns attrs children hmem
    simp only [cs,List.mem_cons,List.not_mem_nil,or_false] at hc
    rcases hc with rfl | rfl
    · cases hlist.symm.trans hns
      simp only [List.mem_singleton,Html.Node.element.injEq] at hmem
      obtain ⟨_,rfl,_⟩ := hmem
      intro t ht
      cases ht
      exact .inr ⟨3,by rfl⟩
    · cases hnone.symm.trans hns
      simp at hmem
  refine ⟨hnum,?_⟩
  rcases paginate_keeps_chapters List.length 0 "D".toList [] .ok cs hnum with
    h | ⟨e,_,c,hc,⟨href,_⟩ | ⟨_,_,_,_,_,_,_,_,⟨⟩⟩⟩
  · exact h
  simp only [cs,List.mem_cons,List.not_mem_nil,or_false] at hc
  cases href with
  | markup href =>
    rcases hc with rfl | rfl
    · exact nomatch hlist.symm.trans href
    · exact nomatch hnone.symm.trans href
  | list hcount =>
    obtain ⟨ns,attrs,children,k,hns,hmem,hpos,hlt,hcount⟩ := hcount
    rcases hc with rfl | rfl
    · cases hlist.symm.trans hns
      cases List.mem_singleton.mp hmem
      have hlen : k < 2 := hlt
      obtain rfl : k = 1 := by omega
      cases hcount with
      | start ht _ he =>
        cases ht
        exact nomatch he
      | number hn hlong =>
        cases hn
        exact absurd hlong (by decide)
    · cases hnone.symm.trans hns
      simp at hmem
  | part hne _ _ => exact absurd rfl hne

/-- A chapter with one block and no lists that has no pages: a declaration in it is not read again
from its own markup, where references to notes are looked for. -/
theorem paginate_refused :
    let html := "<p><![if><![x]></p>".toList
    let b : Block := ⟨"<p><?if><![x?></p>".toList,none⟩
    let s : Setting :=
      ⟨"D".toList,fitsIn (fun fragments => .ok fragments.length) 5,[("1".toList,"n".toList)],.ok⟩
    NumberedLists html ∧ cut html = .ok [b] ∧
      (paginate s [⟨"T".toList,html⟩]).Gives (.error .markup) ∧
      ¬∃ pages, (paginate s [⟨"T".toList,html⟩]).Gives (.ok pages) := by
  intro html b s
  have hread : Html.parse html =
      .ok [.element "p".toList [] [.text .declaration "if><![x".toList]] := by rfl
  have hcut : cut html = .ok [b] := by
    rw [cut,hread]
    rfl
  have hgives : (paginate s [⟨"T".toList,html⟩]).Gives (.error .markup) := by
    have hassemble : assemble [b] = .ok [b.html] := assemble_plain (by simp [b])
    have hfits : fitBlocks s.fits [b] = .ok true := by
      rw [fitBlocks,hassemble]
      rfl
    have hmake : make s "T".toList 1 [b] = .error .markup := by
      rw [make,hassemble]
      rfl
    have hchapter : (ofChapter s 1 ⟨"T".toList,html⟩).Gives (.error .markup) := by
      refine (Compile.gives_ofExcept hcut).bind_ok ?_
      have hf : Filling (fitBlocks s.fits) [] [b] [[b]] := .add hfits (.last (by simp))
      have hgives := hf.gives (make s "T".toList) 1
      simp only [List.zipIdx_cons,List.mapM_cons,hmake] at hgives
      exact hgives
    exact hchapter.bind_error
  refine ⟨?_,hcut,hgives,?_⟩
  · intro ns hns attrs children hmem
    cases hread.symm.trans hns
    simp at hmem
  · rintro ⟨pages,hpages⟩
    exact nomatch Compile.Gives.unique hgives hpages

end Document
end Page
end Longform
