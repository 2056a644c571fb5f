import Mathlib.Tactic.ByContra
import Longform.Template
import Longform.Proofs.Text.Search

/-! Which part of a template gives way to the document, read off the template itself. -/
namespace Longform
namespace Template

/-- The first place of a text where something of a kind stands. -/
structure IsFirst (kind : Text → Prop) (t pre found post : Text) : Prop where
  cut : t = pre ++ (found ++ post)
  is : kind found
  le : ∀ pre' other post', t = pre' ++ (other ++ post') → kind other → pre.length ≤ pre'.length

/-- A tag that begins as one of the element does, with what stands in it behind the name. -/
def IsTag (tag inside : Text) : Prop :=
  ∃ name, tag = name ++ (inside ++ ['>']) ∧ name.map Text.foldChar = "<mark-down".toList ∧
    '>' ∉ inside

def IsEndTag (t : Text) : Prop := t.map Text.foldChar = "</mark-down>".toList

/-- A tag that is an element of its own. -/
def ClosesItself (tag : Text) : Prop := ∃ inside, IsTag tag inside ∧ inside.getLast? = some '/'

/-- An element: a tag that closes itself, or another one up to the first end tag behind it. -/
inductive IsElement : Text → Prop
  | selfClosing {tag : Text} : ClosesItself tag → IsElement tag
  | closed {tag inside content endTag : Text} : IsTag tag inside → inside.getLast? ≠ some '/' →
      IsFirst IsEndTag (content ++ endTag) content endTag [] → IsElement (tag ++ (content ++ endTag))

variable {t r s p pre post html tag inside content endTag : Text} {after? : Text → Option Text}

/-! The search of a text, place by place. -/

section Search

theorem afterFolded?_eq_some_iff : afterFolded? p t = some r ↔
    ∃ u, t = u ++ r ∧ u.map Text.foldChar = p := by
  induction p generalizing t with
  | nil =>
    rw [afterFolded?,Option.some.injEq]
    refine ⟨fun h => ⟨[],h,rfl⟩,fun ⟨u,ht,hu⟩ => ?_⟩
    rw [List.map_eq_nil_iff] at hu
    simpa [hu] using ht
  | cons d p ih =>
    cases t with
    | nil => simp [afterFolded?]
    | cons c t =>
      rw [afterFolded?]
      constructor
      · intro h
        split at h
        · rename_i hc
          obtain ⟨u,rfl,rfl⟩ := ih.mp h
          exact ⟨c::u,rfl,by rw [List.map_cons,hc]⟩
        · cases h
      · rintro ⟨u,ht,hu⟩
        obtain ⟨c',u',rfl,hc,hu'⟩ := List.map_eq_cons_iff.mp hu
        obtain ⟨rfl,rfl⟩ := List.cons_eq_cons.mp ht
        rw [if_pos hc]
        exact ih.mpr ⟨u',rfl,hu'⟩

/-- The first place of a text where a search succeeds, with what is in front and behind. -/
inductive FoundAt (after? : Text → Option Text) : Text → Text → Text → Prop
  | here {t s : Text} : after? t = some s → FoundAt after? t [] s
  | later {c : Char} {t pre s : Text} : after? (c::t) = none → FoundAt after? t pre s →
      FoundAt after? (c::t) (c::pre) s

theorem foundAt_of_le (hat : after? r = some s) (h : ∀ pre' r', pre ++ r = pre' ++ r' →
    after? r' ≠ none → pre.length ≤ pre'.length) : FoundAt after? (pre ++ r) pre s := by
  induction pre with
  | nil => exact .here hat
  | cons c pre ih =>
    refine .later ?_ (ih fun pre' r' heq hsome => ?_)
    · by_contra hsome
      simpa using h [] _ rfl hsome
    · simpa using h (c::pre') r' (by rw [List.cons_append,heq,List.cons_append]) hsome

theorem FoundAt.exists_eq (h : FoundAt after? t pre s) : ∃ r, t = pre ++ r ∧ after? r = some s := by
  induction h with
  | here h => exact ⟨_,rfl,h⟩
  | later _ _ ih =>
    obtain ⟨r,rfl,hr⟩ := ih
    exact ⟨r,rfl,hr⟩

theorem FoundAt.le (h : FoundAt after? t pre s) {pre' r' : Text} (heq : t = pre' ++ r')
    (hsome : after? r' ≠ none) : pre.length ≤ pre'.length := by
  induction h generalizing pre' with
  | here => simp
  | later hnone _ ih =>
    cases pre' with
    | nil => exact absurd hnone (heq ▸ hsome)
    | cons d pre' => simpa using ih (List.cons_eq_cons.mp heq).2

theorem FoundAt.replaceFirst? (h : FoundAt after? t pre s) :
    replaceFirst? after? html t = some (pre ++ (html ++ s)) := by
  induction h with
  | @here t s h => cases t <;> simp [Template.replaceFirst?,h]
  | later h _ ih => simp [Template.replaceFirst?,h,ih]

theorem replaceFirst?_eq_none (h : ∀ pre r, t = pre ++ r → after? r = none) :
    replaceFirst? after? html t = none := by
  induction t with
  | nil => rw [replaceFirst?,h [] [] rfl,Option.map_none]
  | cons c t ih =>
    have hrest := ih fun pre r heq => h (c::pre) r (by rw [heq,List.cons_append])
    simp [replaceFirst?,h [] _ rfl,hrest]

theorem afterFirst?_eq_some_iff :
    afterFirst? p t = some s ↔ ∃ pre, FoundAt (afterFolded? p) t pre s := by
  constructor
  · intro h
    induction t with
    | nil => exact ⟨[],.here h⟩
    | cons c t ih =>
      rw [afterFirst?] at h
      cases hat : afterFolded? p (c::t) with
      | some s' =>
        rw [hat,Option.orElse_some] at h
        exact ⟨[],.here (hat.trans h)⟩
      | none =>
        rw [hat,Option.orElse_none] at h
        obtain ⟨pre,hpre⟩ := ih h
        exact ⟨c::pre,.later hat hpre⟩
  · rintro ⟨pre,h⟩
    induction h with
    | @here t s h => cases t <;> simp [afterFirst?,h]
    | later h _ ih => simp [afterFirst?,h,ih]

/-- The search for an end tag finds the first. -/
theorem afterFirst?_endTag_iff : afterFirst? "</mark-down>".toList t = some s ↔
    ∃ content endTag, IsFirst IsEndTag t content endTag s := by
  rw [afterFirst?_eq_some_iff]
  constructor
  · rintro ⟨content,h⟩
    obtain ⟨r,ht,hr⟩ := h.exists_eq
    obtain ⟨endTag,rfl,hend⟩ := afterFolded?_eq_some_iff.mp hr
    refine ⟨content,endTag,ht,hend,fun pre' other post' heq hother => h.le heq ?_⟩
    rw [afterFolded?_eq_some_iff.mpr ⟨other,rfl,hother⟩]
    exact Option.some_ne_none _
  · rintro ⟨content,endTag,rfl,hend,hle⟩
    refine ⟨content,foundAt_of_le (afterFolded?_eq_some_iff.mpr ⟨endTag,rfl,hend⟩) ?_⟩
    intro pre' r' heq hsome
    obtain ⟨x,hx⟩ := Option.ne_none_iff_exists'.mp hsome
    obtain ⟨u,rfl,hu⟩ := afterFolded?_eq_some_iff.mp hx
    exact hle pre' u x heq hu

end Search

/-! Tags and elements at the beginning of a text. -/

section Beginning

theorem IsTag.exists_front (h : IsTag tag inside) : ∃ front, tag = front ++ ['>'] ∧ '>' ∉ front := by
  obtain ⟨name,rfl,hname,hinside⟩ := h
  refine ⟨name ++ inside,(List.append_assoc _ _ _).symm,?_⟩
  rw [List.mem_append,not_or]
  refine ⟨fun hmem => ?_,hinside⟩
  have hfold := List.mem_map_of_mem (f := Text.foldChar) hmem
  rw [hname] at hfold
  exact absurd hfold (by decide)

/-- The two searches read a tag in the same way. -/
theorem exists_tag_iff : (∃ r, afterFolded? "<mark-down".toList t = some r ∧
    Text.cutAt '>' r = some (inside,s)) ↔ ∃ tag, t = tag ++ s ∧ IsTag tag inside := by
  constructor
  · rintro ⟨r,hr,hcut⟩
    obtain ⟨name,rfl,hname⟩ := afterFolded?_eq_some_iff.mp hr
    obtain ⟨rfl,hinside⟩ := Text.eq_append_of_cutAt hcut
    exact ⟨name ++ (inside ++ ['>']),by simp,name,rfl,hname,hinside⟩
  · rintro ⟨_,rfl,name,rfl,hname,hinside⟩
    exact ⟨inside ++ '>'::s,afterFolded?_eq_some_iff.mpr ⟨name,by simp,hname⟩,
      Text.cutAt_append hinside s⟩

theorem afterElement?_eq_some_iff : afterElement? t = some s ↔ ∃ tag inside rest content endTag,
    t = tag ++ rest ∧ IsTag tag inside ∧ IsFirst IsEndTag rest content endTag s := by
  constructor
  · intro h
    rw [afterElement?] at h
    split at h
    · cases h
    · split at h
      · cases h
      · rename_i r hr _ inside rest hcut
        obtain ⟨tag,ht,htag⟩ := exists_tag_iff.mp ⟨r,hr,hcut⟩
        obtain ⟨content,endTag,hend⟩ := afterFirst?_endTag_iff.mp h
        exact ⟨tag,inside,rest,content,endTag,ht,htag,hend⟩
  · rintro ⟨tag,inside,rest,content,endTag,ht,htag,hend⟩
    obtain ⟨r,hr,hcut⟩ := exists_tag_iff.mpr ⟨tag,ht,htag⟩
    simp only [afterElement?,hr,hcut]
    exact afterFirst?_endTag_iff.mpr ⟨content,endTag,hend⟩

theorem afterSelfClosing?_eq_some_iff : afterSelfClosing? t = some s ↔
    ∃ tag, t = tag ++ s ∧ ClosesItself tag := by
  constructor
  · intro h
    rw [afterSelfClosing?] at h
    split at h
    · cases h
    · split at h
      · cases h
      · split at h
        · rename_i r hr _ inside rest hcut hlast
          cases h
          obtain ⟨tag,ht,htag⟩ := exists_tag_iff.mp ⟨r,hr,hcut⟩
          exact ⟨tag,ht,inside,htag,hlast⟩
        · cases h
  · rintro ⟨tag,ht,inside,htag,hlast⟩
    obtain ⟨r,hr,hcut⟩ := exists_tag_iff.mpr ⟨tag,ht,htag⟩
    simp only [afterSelfClosing?,hr,hcut,if_pos hlast]

end Beginning

/-! The first element and what takes its place. -/

section First
variable {kind : Text → Prop} {e : Text}

theorem exists_isFirst {found : Text} (ht : t = pre ++ (found ++ post)) (hfound : kind found) :
    ∃ pre found post, IsFirst kind t pre found post := by
  induction hn : pre.length using Nat.strongRecOn generalizing pre found post with
  | ind n ih =>
  subst hn
  by_cases hle : ∀ pre' other post', t = pre' ++ (other ++ post') → kind other →
      pre.length ≤ pre'.length
  · exact ⟨pre,found,post,ht,hfound,hle⟩
  · push Not at hle
    obtain ⟨pre',other,post',ht',hother,hlt⟩ := hle
    exact ih _ (by omega) ht' hother rfl

/-- What follows an end tag has no part in its being the first. -/
theorem isFirst_endTag_append : IsFirst IsEndTag (content ++ endTag) content endTag [] ↔
    IsFirst IsEndTag (content ++ (endTag ++ post)) content endTag post := by
  constructor
  · rintro ⟨-,hend,hle⟩
    refine ⟨rfl,hend,fun pre' other post' heq hother => ?_⟩
    by_contra hlt
    have hlength : other.length = endTag.length := by
      rw [← List.length_map (f := Text.foldChar),hother,← hend,List.length_map]
    have hown : pre' ++ other <+: content ++ (endTag ++ post) :=
      ⟨post',by rw [heq,List.append_assoc]⟩
    have hwhole : content ++ endTag <+: content ++ (endTag ++ post) := ⟨post,List.append_assoc _ _ _⟩
    obtain ⟨x,hx⟩ := List.prefix_of_prefix_length_le hown hwhole (by
      rw [List.length_append,List.length_append]
      omega)
    exact hlt (hle pre' other x (by rw [← hx,List.append_assoc]) hother)
  · rintro ⟨-,hend,hle⟩
    refine ⟨by rw [List.append_nil],hend,fun pre' other post' heq hother => ?_⟩
    exact hle pre' other (post' ++ post) (by rw [← List.append_assoc,heq]; simp) hother

theorem exists_element_of_afterElement? (h : afterElement? r = some s) :
    ∃ e post, r = e ++ post ∧ IsElement e := by
  obtain ⟨tag,inside,rest,content,endTag,rfl,htag,hend⟩ := afterElement?_eq_some_iff.mp h
  by_cases hlast : inside.getLast? = some '/'
  · exact ⟨tag,rest,rfl,.selfClosing ⟨inside,htag,hlast⟩⟩
  · obtain rfl := hend.cut
    exact ⟨_,s,by simp,.closed htag hlast (isFirst_endTag_append.mpr hend)⟩

theorem exists_element_of_afterSelfClosing? (h : afterSelfClosing? r = some s) :
    ∃ e post, r = e ++ post ∧ IsElement e := by
  obtain ⟨tag,rfl,htag⟩ := afterSelfClosing?_eq_some_iff.mp h
  exact ⟨tag,s,rfl,.selfClosing htag⟩

/-- A search that succeeds at elements only succeeds nowhere in front of the first. -/
theorem IsFirst.foundAt (h : IsFirst IsElement t pre e post)
    (hafter : ∀ r s, after? r = some s → ∃ e post, r = e ++ post ∧ IsElement e)
    (hat : after? (e ++ post) = some s) : FoundAt after? t pre s := by
  rw [h.cut]
  refine foundAt_of_le hat fun pre' r' heq hsome => ?_
  obtain ⟨x,hx⟩ := Option.ne_none_iff_exists'.mp hsome
  obtain ⟨e',post',rfl,he'⟩ := hafter r' x hx
  exact h.le pre' e' post' (h.cut.trans heq) he'

/-- Behind a tag, what follows a later tag is part of what follows this one. -/
theorem IsTag.suffix_of_le {tag' inside' rest pre' : Text} (htag : IsTag tag inside)
    (htag' : IsTag tag' inside') (heq : pre ++ (tag ++ post) = pre' ++ (tag' ++ rest))
    (hle : pre.length ≤ pre'.length) : rest <:+ post := by
  obtain ⟨front,rfl,hfront⟩ := htag.exists_front
  obtain ⟨front',rfl,-⟩ := htag'.exists_front
  obtain ⟨skip,rfl⟩ : pre <+: pre' :=
    List.prefix_of_prefix_length_le ⟨_,rfl⟩ ⟨_,heq.symm⟩ hle
  have hskip : front ++ '>'::post = skip ++ front' ++ '>'::rest := by simpa using heq
  rcases List.append_eq_append_iff.mp hskip with ⟨x,-,hx⟩ | ⟨x,hx,hx'⟩
  · cases x with
    | nil => exact ⟨[],(List.cons_eq_cons.mp hx).2.symm⟩
    | cons c x => exact ⟨x ++ ['>'],by simp [(List.cons_eq_cons.mp hx).2]⟩
  · cases x with
    | nil => exact ⟨[],(List.cons_eq_cons.mp hx').2⟩
    | cons c x =>
      obtain ⟨rfl,-⟩ := List.cons_eq_cons.mp hx'
      simp [hx] at hfront

theorem IsEndTag.ne_nil (h : IsEndTag t) : t ≠ [] := by
  rintro rfl
  simp [IsEndTag] at h

theorem IsTag.ne_nil (h : IsTag tag inside) : tag ≠ [] := by
  obtain ⟨front,rfl,-⟩ := h.exists_front
  simp

theorem IsElement.ne_nil (h : IsElement e) : e ≠ [] := by
  cases h with
  | selfClosing h =>
    obtain ⟨_,htag,-⟩ := h
    exact htag.ne_nil
  | closed htag => simp [htag.ne_nil]

theorem not_closesItself (htag : IsTag tag inside) (hend : IsEndTag endTag) :
    ¬ClosesItself (tag ++ (content ++ endTag)) := by
  rintro ⟨inside',hwhole,-⟩
  obtain ⟨front,rfl,hfront⟩ := htag.exists_front
  obtain ⟨whole,heq,hwhole⟩ := hwhole.exists_front
  have hcut := Text.cutAt_append hwhole []
  rw [← heq,List.append_assoc,List.singleton_append,Text.cutAt_append hfront] at hcut
  have hnil : content ++ endTag = [] := (Prod.mk.inj (Option.some.inj hcut)).2
  exact hend.ne_nil (List.append_eq_nil_iff.mp hnil).2

theorem fill_of_foundAt (h : FoundAt afterElement? t pre s) : fill t html = pre ++ (html ++ s) := by
  rw [fill,h.replaceFirst?]

/-- Where no end tag follows the first element, which closes itself, no other element is found. -/
theorem fill_of_closesItself (h : IsFirst IsElement t pre e post) (he : ClosesItself e)
    (hpost : ¬∃ between endTag behind, IsFirst IsEndTag post between endTag behind) :
    fill t html = pre ++ (html ++ post) := by
  have hnone : ∀ pre' r', t = pre' ++ r' → afterElement? r' = none := by
    intro pre' r' heq
    by_contra hsome
    obtain ⟨s,hs⟩ := Option.ne_none_iff_exists'.mp hsome
    obtain ⟨e',post',hr,he'⟩ := exists_element_of_afterElement? hs
    have hle := h.le pre' e' post' (hr ▸ heq) he'
    obtain ⟨tag,inside,rest,content,endTag,rfl,htag,hend⟩ := afterElement?_eq_some_iff.mp hs
    obtain ⟨inside',htag',-⟩ := he
    obtain ⟨front,rfl⟩ := htag'.suffix_of_le htag (h.cut.symm.trans heq) hle
    have hbehind : front ++ rest = (front ++ content) ++ (endTag ++ s) := by
      rw [hend.cut,List.append_assoc]
    exact hpost (exists_isFirst hbehind hend.is)
  have hfound := h.foundAt (fun _ _ => exists_element_of_afterSelfClosing?)
    (afterSelfClosing?_eq_some_iff.mpr ⟨e,rfl,he⟩)
  rw [fill,replaceFirst?_eq_none hnone,hfound.replaceFirst?]
  rfl

theorem fill_of_not_exists (h : ¬∃ pre e post, IsFirst IsElement t pre e post) : fill t html = t := by
  have hnone : ∀ after? : Text → Option Text,
      (∀ r s, after? r = some s → ∃ e post, r = e ++ post ∧ IsElement e) →
      replaceFirst? after? html t = none := by
    intro after? hafter
    refine replaceFirst?_eq_none fun pre r ht => ?_
    by_contra hsome
    obtain ⟨s,hs⟩ := Option.ne_none_iff_exists'.mp hsome
    obtain ⟨e,post,rfl,he⟩ := hafter r s hs
    exact h (exists_isFirst ht he)
  rw [fill,hnone _ fun _ _ => exists_element_of_afterElement?,
    hnone _ fun _ _ => exists_element_of_afterSelfClosing?]
  rfl

/-- The first element of a template, and nothing else, gives way to the document, unless that element
closes itself and an end tag follows: then the template is taken away up to that end tag. -/
theorem fill_replaces_first (template html : Text) :
    (∀ pre e post, IsFirst IsElement template pre e post →
      (fill template html = pre ++ (html ++ post) ↔ ¬(ClosesItself e ∧
        ∃ between endTag behind, IsFirst IsEndTag post between endTag behind)) ∧
      ∀ between endTag behind, ClosesItself e → IsFirst IsEndTag post between endTag behind →
        fill template html = pre ++ (html ++ behind)) ∧
    ((¬∃ pre e post, IsFirst IsElement template pre e post) → fill template html = template) := by
  refine ⟨fun pre e post hfirst => ?_,fill_of_not_exists⟩
  have htaken : ∀ between endTag behind, ClosesItself e → IsFirst IsEndTag post between endTag behind →
      fill template html = pre ++ (html ++ behind) := by
    intro between endTag behind ⟨inside,htag,_⟩ hend
    exact fill_of_foundAt (hfirst.foundAt (fun _ _ => exists_element_of_afterElement?)
      (afterElement?_eq_some_iff.mpr ⟨e,inside,post,between,endTag,rfl,htag,hend⟩))
  refine ⟨⟨?_,fun hnot => ?_⟩,htaken⟩
  · rintro hfill ⟨hself,between,endTag,behind,hend⟩
    have hpost : post = behind := by
      simpa using hfill.symm.trans (htaken between endTag behind hself hend)
    have hpos := List.length_pos_iff.mpr hend.is.ne_nil
    have hlength := congrArg List.length hend.cut
    rw [hpost,List.length_append,List.length_append] at hlength
    omega
  · cases hfirst.is with
    | selfClosing hself => exact fill_of_closesItself hfirst hself fun hend => hnot ⟨hself,hend⟩
    | closed htag hlast hend =>
      refine fill_of_foundAt (hfirst.foundAt (fun _ _ => exists_element_of_afterElement?) ?_)
      exact afterElement?_eq_some_iff.mpr ⟨_,_,_,_,_,by simp,htag,isFirst_endTag_append.mp hend⟩

/-- An element with an end tag in front of one that closes itself; one that closes itself, without an end
tag behind it and with one; and no element. -/
theorem fill_replaces_first_mixed :
    fill "<mark-down></mark-down> b <Mark-Down/>".toList ['x'] = "x b <Mark-Down/>".toList ∧
      fill "<mark-down /> b".toList ['x'] = "x b".toList ∧
      fill "<mark-down /></mark-down> b".toList ['x'] = "x b".toList ∧
      fill [] ['x'] = [] := by
  have hname : "<mark-down".toList.map Text.foldChar = "<mark-down".toList := by decide
  have hend : IsEndTag "</mark-down>".toList := by unfold IsEndTag; decide
  have hopens : IsTag "<mark-down>".toList [] := ⟨_,rfl,hname,List.not_mem_nil⟩
  have hself : ClosesItself "<mark-down />".toList := ⟨" /".toList,⟨_,rfl,hname,by decide⟩,rfl⟩
  have hfirst : ∀ {e} post, IsElement e → IsFirst IsElement (e ++ post) [] e post :=
    fun _ he => ⟨rfl,he,fun _ _ _ _ _ => Nat.zero_le _⟩
  have hclosing : ∀ post, IsFirst IsEndTag ("</mark-down>".toList ++ post) [] _ post :=
    fun _ => ⟨rfl,hend,fun _ _ _ _ _ => Nat.zero_le _⟩
  refine ⟨?_,?_,?_,?_⟩
  · have hclosed : IsElement ("<mark-down>".toList ++ ([] ++ "</mark-down>".toList)) :=
      .closed hopens (by decide) (hclosing [])
    exact ((fill_replaces_first _ _).1 _ _ _ (hfirst _ hclosed)).1.mpr fun h =>
      not_closesItself hopens hend h.1
  · refine ((fill_replaces_first _ _).1 _ _ _ (hfirst " b".toList (.selfClosing hself))).1.mpr ?_
    rintro ⟨-,between,endTag,behind,h⟩
    have hlength : endTag.length = "</mark-down>".toList.length := by
      rw [← h.is,List.length_map]
    have hcut := congrArg List.length h.cut
    simp only [List.length_append,hlength,String.reduceToList,List.length_cons,List.length_nil] at hcut
    omega
  · exact ((fill_replaces_first _ _).1 _ _ _ (hfirst _ (.selfClosing hself))).2 _ _ _ hself
      (hclosing " b".toList)
  · refine (fill_replaces_first _ _).2 ?_
    rintro ⟨pre,e,post,hcut,he,-⟩
    obtain ⟨-,hnil,-⟩ : pre = [] ∧ e = [] ∧ post = [] := by simpa using hcut
    exact he.ne_nil hnil

/-- The first element is not all that is taken from a template that goes on with an end tag. -/
theorem not_fill_replaces_first : ¬∀ template html pre e post : Text,
    IsFirst IsElement template pre e post → fill template html = pre ++ (html ++ post) := by
  intro h
  have hname : "<mark-down".toList.map Text.foldChar = "<mark-down".toList := by decide
  have hself : ClosesItself "<mark-down/>".toList := ⟨['/'],⟨_,rfl,hname,by decide⟩,rfl⟩
  have hfill := h ("<mark-down/>".toList ++ " text <mark-down></mark-down>".toList) ['X'] [] _ _
    ⟨rfl,.selfClosing hself,fun _ _ _ _ _ => Nat.zero_le _⟩
  exact absurd hfill (by decide)

end First

end Template
end Longform
