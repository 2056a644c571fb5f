import Longform.Proofs.Fence.Opener
import Longform.Text.Escape

/-! Escaping opens no fence. References stand for characters that are neither marks nor space, so the
beginning of a line looks as before. -/
namespace Longform
namespace Figure

open Fence Text

/-- A character is escaped by itself or by a reference, which has one line and no space. -/
theorem escapeAttributeChar_cases (c : Char) : escapeAttributeChar c = [c] ∨
    ¬IsMark c ∧ Fence.isGap c = false ∧ c ≠ '\n' ∧
      ∃ r, escapeAttributeChar c = '&' :: r ∧ '\n' ∉ r := by
  by_cases h : c ∈ ['"','\'','&','<','>']
  · simp only [List.mem_cons,List.not_mem_nil,or_false] at h
    right
    rcases h with rfl | rfl | rfl | rfl | rfl <;>
      exact ⟨by decide,by decide,by decide,_,rfl,by decide⟩
  · simp only [List.mem_cons,List.not_mem_nil,or_false,not_or] at h
    exact .inl (by simp [escapeAttributeChar,escapeContentChar,h])

theorem escapeAttribute_cons (c : Char) (t : Text) :
    escapeAttribute (c::t) = escapeAttributeChar c ++ escapeAttribute t := rfl

@[simp] theorem escapeAttribute_append (s t : Text) :
    escapeAttribute (s ++ t) = escapeAttribute s ++ escapeAttribute t := List.flatMap_append

theorem escapeAttribute_newline (s t : Text) :
    escapeAttribute (s ++ '\n' :: t) = escapeAttribute s ++ '\n' :: escapeAttribute t := by
  rw [escapeAttribute_append,escapeAttribute_cons]
  rfl

theorem newline_not_mem_escapeAttribute {t : Text} (h : '\n' ∉ t) : '\n' ∉ escapeAttribute t := by
  intro hm
  obtain ⟨c,hc,hm⟩ := List.mem_flatMap.mp hm
  rcases escapeAttributeChar_cases c with he | ⟨_,_,hne,r,he,hr⟩ <;> rw [he] at hm
  · exact h (List.mem_singleton.mp hm ▸ hc)
  · rcases List.mem_cons.mp hm with hm | hm
    · exact absurd hm (by decide)
    · exact hr hm

theorem newline_not_mem_escapeContent {t : Text} (h : '\n' ∉ t) : '\n' ∉ escapeContent t := by
  intro hm
  obtain ⟨c,hc,hm⟩ := List.mem_flatMap.mp hm
  have hne : '\n' ≠ c := fun he => h (he ▸ hc)
  unfold escapeContentChar at hm
  split at hm
  · exact absurd hm (by decide)
  split at hm
  · exact absurd hm (by decide)
  split at hm
  · exact absurd hm (by decide)
  · exact hne (List.mem_singleton.mp hm)

theorem mark_mem_escapeAttribute {t : Text} {c : Char} (hc : IsMark c) (h : c ∈ t) :
    c ∈ escapeAttribute t := by
  refine List.mem_flatMap.mpr ⟨c,h,?_⟩
  rcases escapeAttributeChar_cases c with he | ⟨hne,_⟩
  · simp [he]
  · exact absurd hc hne

theorem dropWhile_escape_append (w : Text) {y : Text} (hy : ∀ c ∈ y.head?, Fence.isGap c = false) :
    (escapeAttribute w ++ y).dropWhile Fence.isGap =
      escapeAttribute (w.dropWhile Fence.isGap) ++ y := by
  induction w with
  | nil =>
    cases y with
    | nil => rfl
    | cons c y => simp [escapeAttribute,hy c (by simp)]
  | cons c w ih =>
    rcases escapeAttributeChar_cases c with he | ⟨_,hgap,_,r,he,_⟩
    · by_cases hgap : Fence.isGap c = true
      · simpa [escapeAttribute_cons,he,hgap] using ih
      · simp [escapeAttribute_cons,he,hgap]
    · have hamp : Fence.isGap '&' = false := by decide
      simp [escapeAttribute_cons,he,hgap,hamp]

section Run

variable {c : Char} {y z : Text}

/-- Another character than a mark does not become it. -/
theorem escapeAttributeChar_head (hc : IsMark c) {d : Char} (hd : d ≠ c) :
    ∃ e r, escapeAttributeChar d = e::r ∧ e ≠ c := by
  rcases escapeAttributeChar_cases d with he | ⟨_,_,_,r,he,_⟩
  · exact ⟨d,[],he,hd⟩
  · refine ⟨'&',r,he,?_⟩
    rintro rfl
    exact absurd hc (by decide)

theorem escapeAttributeChar_of_mark (hc : IsMark c) : escapeAttributeChar c = [c] := by
  rcases escapeAttributeChar_cases c with he | ⟨hne,_⟩
  · exact he
  · exact absurd hc hne

theorem takeWhile_eq_nil_of_head? (hy : y.head? ≠ some c) : y.takeWhile (· = c) = [] := by
  cases y with
  | nil => rfl
  | cons d y => exact List.takeWhile_cons_of_neg (by simpa using hy)

/-- A run of marks is as long after escaping, whatever else ends it. -/
theorem takeWhile_escape_append (hc : IsMark c) (hy : y.head? ≠ some c) (hz : z.head? ≠ some c)
    (w : Text) : (escapeAttribute w ++ y).takeWhile (· = c) = (w ++ z).takeWhile (· = c) := by
  induction w with
  | nil => exact (takeWhile_eq_nil_of_head? hy).trans (takeWhile_eq_nil_of_head? hz).symm
  | cons d w ih =>
    by_cases hd : d = c
    · subst hd
      simpa [escapeAttribute_cons,escapeAttributeChar_of_mark hc] using ih
    · obtain ⟨e,r,he,hne⟩ := escapeAttributeChar_head hc hd
      simp [escapeAttribute_cons,he,hne,hd]

/-- What stands behind a run of marks keeps its marks. -/
theorem mem_dropWhile_escape_append (hc : IsMark c) (hy : y.head? ≠ some c) {m : Char} (hm : IsMark m)
    (hmem : m ∈ z → m ∈ y) (w : Text) (h : m ∈ (w ++ z).dropWhile (· = c)) :
    m ∈ (escapeAttribute w ++ y).dropWhile (· = c) := by
  induction w with
  | nil =>
    have hdrop : y.dropWhile (· = c) = y := by
      have happend := List.takeWhile_append_dropWhile (p:=(· = c)) (l:=y)
      rwa [takeWhile_eq_nil_of_head? hy] at happend
    rw [escapeAttribute,List.flatMap_nil,List.nil_append,hdrop]
    exact hmem ((List.dropWhile_sublist _).subset h)
  | cons d w ih =>
    by_cases hd : d = c
    · subst hd
      rw [escapeAttribute_cons,escapeAttributeChar_of_mark hc]
      simpa using ih (by simpa using h)
    · obtain ⟨e,r,he,hne⟩ := escapeAttributeChar_head hc hd
      have hall : m ∈ escapeAttribute (d::w) ++ y := by
        rw [List.cons_append,List.dropWhile_cons_of_neg (by simpa using hd),← List.cons_append,
          List.mem_append] at h
        exact List.mem_append.mpr (h.imp (mark_mem_escapeAttribute hm) hmem)
      rw [escapeAttribute_cons,he] at hall ⊢
      simpa [hne] using hall

end Run

/-- A line that opens no fence opens none when it is escaped and ends otherwise, if the other end is
no mark or space and holds a backtick where the former one did. -/
theorem opener?_escape_append {w y z : Text} (hy : ∀ c ∈ y.head?, ¬IsMark c ∧ Fence.isGap c = false)
    (hz : ∀ c ∈ z.head?, ¬IsMark c) (hwz : '\n' ∉ w ++ z) (hyn : '\n' ∉ y)
    (hmem : '\x60' ∈ z → '\x60' ∈ y) (h : opener? (w ++ z) = none) :
    opener? (escapeAttribute w ++ y) = none := by
  have hdrop := dropWhile_escape_append w (y:=y) fun c hc => (hy c hc).2
  rcases hw : w.dropWhile Fence.isGap with _ | ⟨c,r⟩
  · rw [hw] at hdrop
    cases y with
    | nil => exact opener?_of_dropWhile_nil hdrop
    | cons d y => exact opener?_of_not_mark hdrop (hy d rfl).1
  rw [hw,escapeAttribute_cons,List.append_assoc] at hdrop
  by_cases hc : IsMark c
  · rw [escapeAttributeChar_of_mark hc,List.singleton_append] at hdrop
    have hbefore : (w ++ z).dropWhile Fence.isGap = c::(r ++ z) := by
      simp [List.dropWhile_append,hw]
    have hsub : ∀ d ∈ c::r, d ∈ w := fun d hd =>
      (List.dropWhile_sublist Fence.isGap).subset (hw ▸ hd)
    have hrz : '\n' ∉ r ++ z := by
      intro hm
      refine hwz (List.mem_append.mpr ((List.mem_append.mp hm).imp_left fun hr => ?_))
      exact hsub _ (List.mem_cons_of_mem c hr)
    have hry : '\n' ∉ escapeAttribute r ++ y := by
      rw [List.mem_append,not_or]
      exact ⟨newline_not_mem_escapeAttribute fun hm => hrz (List.mem_append_left z hm),hyn⟩
    have hyc : y.head? ≠ some c := fun he => (hy c he).1 hc
    have hzc : z.head? ≠ some c := fun he => hz c he hc
    refine (opener?_of_mark hdrop hc hry).mpr ?_
    rw [takeWhile_escape_append hc hyc hzc r]
    refine ((opener?_of_mark hbefore hc hrz).mp h).imp_right fun ⟨hb,hm⟩ => ⟨hb,?_⟩
    exact mem_dropWhile_escape_append hc hyc (.inl rfl) hmem r hm
  · rcases escapeAttributeChar_cases c with he | ⟨_,_,_,e,he,_⟩ <;> rw [he] at hdrop
    · exact opener?_of_not_mark hdrop hc
    · exact opener?_of_not_mark hdrop (by decide)

theorem opener?_escape {l : Text} (hl : '\n' ∉ l) (h : opener? l = none) :
    opener? (escapeAttribute l) = none := by
  have hescape := opener?_escape_append (w:=l) (y:=[]) (z:=[]) (by simp) (by simp) (by simpa using hl)
    (by simp) (by simp) (by simpa using h)
  simpa using hescape

end Figure
end Longform
