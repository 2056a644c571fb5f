import Longform.Page.Block
import Longform.Proofs.Decimal.Whole
import Longform.Proofs.Outcome

/-! Putting blocks back together. Only a numbered list keeps blocks from it: one that begins with a later
item, when its start is no whole number, or has too many figures, itself or counted on. -/
namespace Longform
namespace Page

/-- The start of a list is absent, empty or a whole number. -/
def StartsWhole (attrs : Dictionary Text) : Prop :=
  ∀ t, (Dictionary.ofEntries attrs).find? "start".toList = some t →
    t = [] ∨ ∃ n, Decimal.value? 10 t = some n

/-- Every numbered list at the top of a rendered text has a start to count from. -/
def NumberedLists (html : Text) : Prop :=
  ∀ ns, Html.parse html = .ok ns → ∀ attrs children,
    .element "ol".toList attrs children ∈ ns → StartsWhole attrs

/-- Why a list with these attributes is not counted on to the item at a position. -/
inductive Uncountable (attrs : Dictionary Text) (ordinal : Int) : Fault → Prop
  | start {t e} : attrs.find? "start".toList = some t → t ≠ [] → Decimal.integer? 10 t = .error e →
      Uncountable attrs ordinal e
  | number {n} : start attrs = .ok n →
      Decimal.mostFigures < (Text.ofNat (n + ordinal).natAbs).length →
      Uncountable attrs ordinal .longNumber

/-- One of the numbered lists at the top of a rendered text is not counted on to one of its items. -/
def Uncounted (html : Text) (e : Fault) : Prop :=
  ∃ ns attrs children, ∃ k : Nat, Html.parse html = .ok ns ∧
    .element "ol".toList attrs children ∈ ns ∧ 0 < k ∧
    k < (children.filter (Html.Node.isElement "li".toList)).length ∧
    Uncountable (Dictionary.ofEntries attrs) k e

section Lists

variable {attrs : Dictionary Text} {e : Fault}

theorem startAt_error {ordinal : Int} (h : startAt attrs ordinal = .error e) :
    Uncountable attrs ordinal e := by
  rcases bind_eq_error_iff.mp h with h | ⟨n,hn,h⟩
  · unfold start at h
    split at h
    · cases h
    · cases h
    · rename_i t hne ht
      exact .start ht hne h
  · obtain ⟨hlong,rfl⟩ := Decimal.write_error h
    exact .number hn hlong

/-- Where the start is whole, there are too many figures. -/
theorem Uncountable.tooLong {ordinal : Int} (h : Uncountable (Dictionary.ofEntries attrs) ordinal e)
    (hwhole : StartsWhole attrs) : Decimal.TooLong e := by
  cases h with
  | @start t _ ht hne herror =>
    obtain ⟨n,hn⟩ := (hwhole t ht).resolve_left hne
    rcases Decimal.integer?_error herror with ⟨hnone,-⟩ | hlong
    · exact nomatch hnone.symm.trans hn
    · exact hlong
  | number _ _ => exact .written

theorem Uncounted.tooLong {html : Text} (h : Uncounted html e) (hnum : NumberedLists html) :
    Decimal.TooLong e := by
  obtain ⟨ns,attrs,children,k,hparse,hmem,-,-,hk⟩ := h
  exact hk.tooLong (hnum ns hparse attrs children hmem)

/-- A member of a list with an attribute that keeps a page from beginning with it. -/
def Membership.IsUncountable (m : Membership) (e : Fault) : Prop :=
  m.tag = "ol".toList ∧ m.ordinal ≠ 0 ∧ Uncountable (Dictionary.ofEntries m.attrs) m.ordinal e

theorem listMarkup_error {m : Membership} {items : List Text} (h : listMarkup m items = .error e) :
    m.IsUncountable e := by
  have hattrs : attributes m = .error e := map_eq_error_iff.mp (map_eq_error_iff.mp h)
  simp only [attributes,Bool.and_eq_true,decide_eq_true_eq] at hattrs
  split at hattrs
  · rename_i hlater
    exact ⟨hlater.1,hlater.2,startAt_error (map_eq_error_iff.mp hattrs)⟩
  · cases hattrs

end Lists

theorem spanList_suffix (list : Int) (bs : List Block) : (spanList list bs).2 <:+ bs := by
  induction bs with
  | nil => simp [spanList]
  | cons b bs ih =>
    unfold spanList
    split
    · exact ih.trans (List.suffix_cons b bs)
    · exact List.suffix_refl _

theorem assemble_error {bs : List Block} {e : Fault} (h : assemble bs = .error e) :
    ∃ b ∈ bs, ∃ m, b.membership = some m ∧ m.IsUncountable e := by
  induction bs using assemble.induct with
  | case1 =>
    rw [assemble] at h
    cases h
  | case2 b bs hb ih =>
    rw [assemble,hb] at h
    obtain ⟨c,hc,hm⟩ := ih (map_eq_error_iff.mp h)
    exact ⟨c,by simp [hc],hm⟩
  | case3 b bs m hb ih =>
    rw [assemble,hb] at h
    rcases bind_eq_error_iff.mp h with h | ⟨_,_,h⟩
    · exact ⟨b,by simp,m,hb,listMarkup_error h⟩
    rcases bind_eq_error_iff.mp h with h | ⟨_,_,h⟩
    · obtain ⟨c,hc,hm⟩ := ih h
      exact ⟨c,List.mem_cons_of_mem _ ((spanList_suffix m.list bs).subset hc),hm⟩
    · cases h

/-- Blocks of no list are put together as they are. -/
theorem assemble_plain {bs : List Block} (h : ∀ b ∈ bs, b.membership = none) :
    assemble bs = .ok (bs.map (·.html)) := by
  induction bs with
  | nil => rw [assemble]; rfl
  | cons b bs ih =>
    rw [assemble,h b (by simp),ih fun c hc => h c (by simp [hc])]
    rfl

/-- A member of a list is an item of one of the nodes that are cut. -/
theorem exists_of_mem_nodeBlocks {n : Html.Node} {position : Nat} {b : Block} {m : Membership}
    (hb : b ∈ nodeBlocks n position) (hm : b.membership = some m) :
    ∃ children, ∃ k : Nat, n = .element m.tag m.attrs children ∧ m.ordinal = k ∧
      k < (children.filter (Html.Node.isElement "li".toList)).length := by
  cases n with
  | text kind t =>
    simp only [nodeBlocks] at hb
    split at hb
    · simp at hb
    · rw [List.mem_singleton] at hb
      simp [hb] at hm
  | element name attrs children =>
    simp only [nodeBlocks] at hb
    split at hb
    · obtain ⟨⟨item,k⟩,hitem,rfl⟩ := List.mem_map.mp hb
      cases hm
      exact ⟨children,k,rfl,rfl,List.snd_lt_of_mem_zipIdx hitem⟩
    · rw [List.mem_singleton] at hb
      simp [hb] at hm

/-- Putting neighbouring blocks of a chapter back together fails only for a list of the chapter. -/
theorem uncounted_of_assemble {html : Text} {bs us : List Block} {e : Fault} (hcut : cut html = .ok bs)
    (hus : us <:+: bs) (h : assemble us = .error e) : Uncounted html e := by
  obtain ⟨b,hb,m,hm,htag,hlater,hcount⟩ := assemble_error h
  obtain ⟨ns,hparse,rfl⟩ := map_eq_ok_iff.mp hcut
  obtain ⟨⟨n,i⟩,hn,hb⟩ := List.mem_flatMap.mp (hus.subset hb)
  obtain ⟨children,k,rfl,hk,hlt⟩ := exists_of_mem_nodeBlocks hb hm
  refine ⟨ns,m.attrs,children,k,hparse,htag ▸ List.fst_mem_of_mem_zipIdx hn,?_,hlt,hk ▸ hcount⟩
  omega

end Page
end Longform
