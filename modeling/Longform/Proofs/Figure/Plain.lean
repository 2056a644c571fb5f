import Longform.Figure
import Longform.Proofs.Fence.Scan
import Longform.Proofs.Figure.Escape
import Longform.Proofs.Text.Search
import Longform.Proofs.Text.Trim

/-! Figures open no fence. A captioned image is read from lines that open none, and neither its first
line nor the lines of a target that spans several does after it is written as a figure. -/
namespace Longform
namespace Figure

open Fence Text

/-- A text begins with the reading. Behind the link, up to the end of its line, `behind` is read. -/
structure Reading.BeginsWith (x : Reading) (t behind : Text) : Prop where
  source : t = "![[".toList ++ x.target ++ ("]]".toList ++ behind) ++ '\n' :: (x.caption ++ x.rest)
  behind_line : '\n' ∉ behind
  /-- A backtick behind the link is part of the alternative text. -/
  mem_alt : '\x60' ∈ behind → '\x60' ∈ x.alt
  alt_line : '\n' ∉ x.alt
  caption_line : '\n' ∉ x.caption
  rest_start : ∀ c ∈ x.rest.head?, c = '\n'

theorem eq_of_target? {t target s : Text} (h : target? t = some (target,s)) :
    t = "![[".toList ++ target ++ ']' :: ']' :: s := by
  unfold target? at h
  split at h
  · exact nomatch h
  rename_i r hr
  split at h
  · rename_i target' s' hcut
    split at h
    · exact nomatch h
    · cases h
      rw [eq_append_of_after? hr,(eq_append_of_cutAt hcut).1,List.append_assoc]
  · exact nomatch h

theorem eq_of_lineBelow? {t l rest : Text} (h : lineBelow? t = some (l,rest)) :
    t = '\n' :: (l ++ rest) ∧ '\n' ∉ l ∧ ∀ c ∈ rest.head?, c = '\n' := by
  unfold lineBelow? at h
  split at h
  · rename_i r
    unfold line? at h
    simp only at h
    split at h
    · exact nomatch h
    · cases h
      obtain ⟨happ,hl,hrest⟩ := line_append r
      exact ⟨congrArg _ happ,hl,hrest⟩
  · exact nomatch h

theorem beginsWith_of_withoutAlt? {t : Text} {x : Reading} (h : withoutAlt? t = some x) :
    x.BeginsWith t [] := by
  unfold withoutAlt? at h
  split at h
  · exact nomatch h
  rename_i target s ht
  split at h
  · exact nomatch h
  rename_i caption rest hbelow
  cases h
  obtain ⟨hs,hcaption,hrest⟩ := eq_of_lineBelow? hbelow
  refine ⟨?_,by simp,by simp,hcaption,hcaption,hrest⟩
  rw [eq_of_target? ht,hs]
  simp

theorem beginsWith_of_withAlt? {t : Text} {x : Reading} (h : withAlt? t = some x) :
    ∃ behind, x.BeginsWith t behind := by
  unfold withAlt? at h
  split at h
  · exact nomatch h
  rename_i target s ht
  simp only at h
  split at h
  · exact nomatch h
  split at h
  · exact nomatch h
  rename_i caption rest hbelow
  cases h
  obtain ⟨hs,hcaption,hrest⟩ := eq_of_lineBelow? hbelow
  obtain ⟨happ,halt,_⟩ := line_append (s.dropWhile isGap)
  have hgap : ∀ c ∈ s.takeWhile isGap, isGap c = true := List.all_eq_true.mp List.all_takeWhile
  have hsplit : s = s.takeWhile isGap ++ ((s.dropWhile isGap).takeWhile (· ≠ '\n') ++
      '\n' :: (caption ++ rest)) := by
    rw [← hs,← happ,List.takeWhile_append_dropWhile]
  clear happ hs hbelow
  generalize (s.dropWhile isGap).takeWhile (· ≠ '\n') = alt at *
  generalize s.takeWhile isGap = gap at *
  subst hsplit
  refine ⟨gap ++ alt,?_,?_,?_,?_,hcaption,hrest⟩
  · rw [eq_of_target? ht]
    simp
  · rw [List.mem_append,not_or]
    exact ⟨fun hm => absurd (hgap _ hm) (by decide),halt⟩
  · intro hm
    have hm := (List.mem_append.mp hm).resolve_left fun hg => absurd (hgap _ hg) (by decide)
    cases alt with
    | nil => exact absurd hm (by simp)
    | cons c alt => exact hm
  · cases alt with
    | nil => exact fun hm => absurd (hgap _ ((List.drop_sublist _ _).subset hm)) (by decide)
    | cons c alt => exact halt

theorem opener?_figure (l : Text) : opener? ("<figure><img src=\"".toList ++ l) = none :=
  opener?_of_not_mark (c := '<') rfl (by decide)

theorem plain_append_newline {a b : Text} :
    Fence.Plain (lines (a ++ '\n' :: b)) ↔ Fence.Plain (lines a) ∧ Fence.Plain (lines b) := by
  simp only [Fence.Plain,lines_append_newline,List.mem_append,or_imp,forall_and]

theorem plain_line {l : Text} (h : '\n' ∉ l) : Fence.Plain (lines l) ↔ opener? l = none := by
  simp [Fence.Plain,lines_of_not_mem h]

section Lines

variable {y z : Text} (hy : ∀ c ∈ y.head?, ¬IsMark c ∧ Fence.isGap c = false)
  (hz : ∀ c ∈ z.head?, ¬IsMark c) (hyn : '\n' ∉ y) (hzn : '\n' ∉ z) (hmem : '\x60' ∈ z → '\x60' ∈ y)

include hy hz hyn hzn hmem in
/-- Lines that open no fence open none when they are escaped and the last ends otherwise. -/
theorem plain_escape_append (v p : Text) (hp : '\n' ∉ p) (h : Fence.Plain (lines (p ++ v ++ z))) :
    Fence.Plain (lines (escapeAttribute (p ++ v) ++ y)) := by
  induction v generalizing p with
  | nil =>
    rw [List.append_nil] at h ⊢
    have hpz : '\n' ∉ p ++ z := by simp [hp,hzn]
    have hpy : '\n' ∉ escapeAttribute p ++ y := by
      simp [newline_not_mem_escapeAttribute hp,hyn]
    exact (plain_line hpy).mpr (opener?_escape_append hy hz hpz hyn hmem ((plain_line hpz).mp h))
  | cons c v ih =>
    by_cases hc : c = '\n'
    · subst hc
      rw [List.append_assoc,List.cons_append,plain_append_newline] at h
      have hline := (plain_line (newline_not_mem_escapeAttribute hp)).mpr
        (opener?_escape hp ((plain_line hp).mp h.1))
      rw [escapeAttribute_newline,List.append_assoc,List.cons_append,plain_append_newline]
      exact ⟨hline,ih [] (by simp) h.2⟩
    · have hassoc : p ++ c::v = (p ++ [c]) ++ v := by simp
      rw [hassoc] at h ⊢
      refine ih (p ++ [c]) ?_ h
      simp [hp,Ne.symm hc]

end Lines

/-- Where a target is cut off for its figure: what was behind it up to the end of the line may be
followed by something else instead. -/
theorem Reading.BeginsWith.exists_cut {x : Reading} {t behind : Text} (hx : x.BeginsWith t behind) :
    ∃ a z r, t = a ++ trim x.target ++ z ++ '\n' :: r ∧ '\n' ∉ z ∧ (∀ c ∈ z.head?, ¬IsMark c) ∧
      ('\x60' ∈ z → '\x60' ∈ x.alt) := by
  obtain ⟨a,b,htarget,_,hb⟩ := exists_trim_append x.target
  have ht := hx.source
  by_cases hbn : '\n' ∈ b
  · obtain ⟨z,b',rfl,hz⟩ := List.eq_append_cons_of_mem hbn
    refine ⟨"![[".toList ++ a,z,b' ++ ("]]".toList ++ behind) ++ '\n' :: (x.caption ++ x.rest),?_,hz,
      fun c hc => not_isMark_of_isBlank (hb c ?_),fun hm => ?_⟩
    · rw [ht]
      conv => lhs; rw [htarget]
      simp
    · exact List.mem_append_left _ (List.mem_of_mem_head? hc)
    · exact absurd (hb _ (List.mem_append_left _ hm)) (by decide)
  · refine ⟨"![[".toList ++ a,b ++ ("]]".toList ++ behind),x.caption ++ x.rest,?_,?_,?_,?_⟩
    · rw [ht]
      conv => lhs; rw [htarget]
      simp
    · simpa [hbn] using hx.behind_line
    · intro c hc
      cases b with
      | nil =>
        cases hc
        decide
      | cons d b =>
        cases hc
        exact not_isMark_of_isBlank (hb _ (by simp))
    · intro hm
      rcases List.mem_append.mp hm with hm | hm
      · exact absurd (hb _ hm) (by decide)
      · exact hx.mem_alt (by simpa using hm)

/-- The markup of a figure behind the address of its image. -/
def Reading.afterSource (x : Reading) : Text :=
  "\" alt=\"".toList ++ (escapeAttribute (trim x.alt) ++ ("\"><figcaption>".toList ++
    (escapeContent (trim x.caption) ++ "</figcaption></figure>".toList)))

theorem markup_eq (x : Reading) : markup x.target x.alt x.caption =
    "<figure><img src=\"".toList ++ (escapeAttribute (trim x.target) ++ x.afterSource) := by
  unfold markup Reading.afterSource
  repeat rw [List.append_assoc]

theorem Reading.BeginsWith.afterSource_line {x : Reading} {t behind : Text}
    (hx : x.BeginsWith t behind) : '\n' ∉ x.afterSource := by
  have halt : '\n' ∉ trim x.alt := fun hm => hx.alt_line (mem_of_mem_trim hm)
  have hcaption : '\n' ∉ trim x.caption := fun hm => hx.caption_line (mem_of_mem_trim hm)
  unfold Reading.afterSource
  refine List.not_mem_append (by decide) ?_
  refine List.not_mem_append (newline_not_mem_escapeAttribute halt) ?_
  refine List.not_mem_append (by decide) ?_
  exact List.not_mem_append (newline_not_mem_escapeContent hcaption) (by decide)

/-- The lines of a figure open no fence. -/
theorem Reading.BeginsWith.plain_markup {x : Reading} {t behind : Text} (hx : x.BeginsWith t behind)
    (ht : Fence.Plain (lines t)) : Fence.Plain (lines (markup x.target x.alt x.caption)) := by
  obtain ⟨a,z,r,hcut,hzn,hz,hmem⟩ := hx.exists_cut
  have hyn := hx.afterSource_line
  have hy : ∀ c ∈ x.afterSource.head?, ¬IsMark c ∧ Fence.isGap c = false := by
    intro c hc
    cases hc
    decide
  have hmem' : '\x60' ∈ z → '\x60' ∈ x.afterSource := by
    intro hm
    have halt : '\x60' ∈ escapeAttribute (trim x.alt) :=
      mark_mem_escapeAttribute (.inl rfl) (mem_trim (hmem hm) (by decide))
    exact List.mem_append_right _ (List.mem_append_left _ halt)
  rw [markup_eq]
  generalize trim x.target = v at *
  by_cases hv : '\n' ∈ v
  · -- the first line begins with the element, the others are lines of the target
    obtain ⟨u,w,rfl,hu⟩ := List.eq_append_cons_of_mem hv
    have hwz : Fence.Plain (lines ([] ++ w ++ z)) := by
      have hlines : t = (a ++ u) ++ '\n' :: ((w ++ z) ++ '\n' :: r) := by simp [hcut]
      rw [hlines,plain_append_newline,plain_append_newline] at ht
      exact ht.2.1
    rw [escapeAttribute_newline,List.append_assoc,← List.append_assoc,List.cons_append,
      plain_append_newline]
    refine ⟨(plain_line ?_).mpr (opener?_figure _),?_⟩
    · exact List.not_mem_append (by decide) (newline_not_mem_escapeAttribute hu)
    · exact plain_escape_append hy hz hyn hzn hmem' w [] (by simp) hwz
  · refine (plain_line ?_).mpr (opener?_figure _)
    exact List.not_mem_append (by decide)
      (List.not_mem_append (newline_not_mem_escapeAttribute hv) hyn)

theorem Reading.BeginsWith.plain_rest {x : Reading} {t behind r : Text} (hx : x.BeginsWith t behind)
    (ht : Fence.Plain (lines t)) (hr : x.rest = '\n' :: r) : Fence.Plain (lines r) := by
  have hsource := hx.source
  rw [hr] at hsource
  have hlines : t = ("![[".toList ++ x.target ++ ("]]".toList ++ behind) ++ '\n' :: x.caption) ++
      '\n' :: r := by
    rw [hsource]
    simp only [List.append_assoc,List.cons_append]
  rw [hlines,plain_append_newline] at ht
  exact ht.2

/-- Writing a reading as a figure opens no fence. -/
theorem Reading.BeginsWith.plain_render {x : Reading} {t behind : Text} (hx : x.BeginsWith t behind)
    (ht : Fence.Plain (lines t)) : Fence.Plain (lines (x.render t ++ x.rest)) := by
  unfold Reading.render
  split
  · rcases hrest : x.rest with _ | ⟨c,r⟩
    · simpa using hx.plain_markup ht
    · have hc : c = '\n' := hx.rest_start c (by simp [hrest])
      subst hc
      rw [plain_append_newline]
      exact ⟨hx.plain_markup ht,hx.plain_rest ht hrest⟩
  · have hsuffix : x.rest <:+ t := by
      rw [hx.source]
      exact ⟨"![[".toList ++ x.target ++ ("]]".toList ++ behind) ++ '\n' :: x.caption,by simp⟩
    obtain ⟨front,hfront⟩ := hsuffix
    rw [← hfront] at ht ⊢
    simpa using ht

/-- Writing all readings of a text as figures opens no fence. What stands in front of the present
place, `p`, is out already. -/
theorem plain_expandFrom {read? : Text → Option Reading}
    (hread : ∀ t x, read? t = some x → ∃ behind, x.BeginsWith t behind) (fuel : Nat)
    (atStart : Bool) (p t : Text) (hp : atStart = true → p = [] ∨ ∃ q, p = q ++ ['\n'])
    (h : Fence.Plain (lines (p ++ t))) : Fence.Plain (lines (p ++ expandFrom read? fuel atStart t)) := by
  induction fuel generalizing atStart p t with
  | zero => exact h
  | succ fuel ih =>
    cases t with
    | nil => exact h
    | cons c r =>
      rw [expandFrom]
      split
      · rename_i x hx
        cases atStart with
        | false => exact nomatch hx
        | true =>
          obtain ⟨behind,hbegins⟩ := hread _ x hx
          have hstep : Fence.Plain (lines (p ++ (x.render (c::r) ++ x.rest))) := by
            rcases hp rfl with rfl | ⟨q,rfl⟩
            · exact hbegins.plain_render h
            · rw [List.append_assoc,List.singleton_append,plain_append_newline] at h ⊢
              exact ⟨h.1,hbegins.plain_render h.2⟩
          have hrest := ih false (p ++ x.render (c::r)) x.rest (by simp) (by simpa using hstep)
          simpa using hrest
      · have hstep := ih (c = '\n') (p ++ [c]) r
          (fun hc => .inr ⟨p,by rw [decide_eq_true_eq.mp hc]⟩) (by simpa using h)
        simpa using hstep

theorem plain_expandSegment {t : Text} (h : Fence.Plain (lines t)) :
    Fence.Plain (lines (expandSegment t)) := by
  have hwith := plain_expandFrom (fun _ _ => beginsWith_of_withAlt?) t.length true [] t
    (fun _ => .inl rfl) h
  exact plain_expandFrom (fun _ _ hx => ⟨[],beginsWith_of_withoutAlt? hx⟩) _ true [] _
    (fun _ => .inl rfl) hwith

end Figure
end Longform
