import Longform.Slide
import Longform.Proofs.Text.Marks
import Longform.Proofs.Text.Search
import Longform.Proofs.Text.Trim

/-! Slides and the rules between them. A document is cut at its rule tags from left to right, and joining
slides by a rule is undone by cutting: a rule tag has one `<`, at its beginning, and one `>`, at its end, so
that what is left of other tags in two slides never makes a tag with the rule between them. -/
namespace Longform
namespace Slide

open Text

/-- A horizontal rule as it is written. -/
structure RuleTag where
  first : Char
  second : Char
  gap : Text
  slash : Bool
  first_eq : first = 'h' ∨ first = 'H'
  second_eq : second = 'r' ∨ second = 'R'
  gap_blank : ∀ c ∈ gap, isBlank c = true

/-- The end of a rule tag. -/
def closing (slash : Bool) : Text := if slash then ['/','>'] else ['>']

def RuleTag.text (m : RuleTag) : Text := '<' :: m.first :: m.second :: (m.gap ++ closing m.slash)

/-- A rule tag with blanks around it. -/
inductive IsRule : Text → Prop
  | intro (m : RuleTag) {before behind : Text} (before_blank : ∀ c ∈ before, isBlank c = true)
      (behind_blank : ∀ c ∈ behind, isBlank c = true) : IsRule (before ++ (m.text ++ behind))

/-- What a slide can be: something without blanks at its ends and without rule tags. -/
structure IsSlide (f : Text) : Prop where
  ne_nil : f ≠ []
  trimmed : trim f = f
  whole : ¬HasMark RuleTag.text f

/-! Letters of either case. -/

theorem foldChar_of_not_ascii {c : Char} (h : 128 ≤ c.toNat) :
    foldChar c = 's' ∨ foldChar c = 'i' ∨ foldChar c = 'k' ∨ foldChar c = c := by
  have hlower : c.toLower = c := by
    have hbig : ¬c.toNat ≤ 'Z'.toNat := Nat.not_le.mpr (Nat.lt_of_lt_of_le (by decide) h)
    exact dif_neg fun hupper => hbig hupper.2
  unfold foldChar
  rw [hlower]
  split
  · exact .inl rfl
  split
  · exact .inr (.inl rfl)
  split
  · exact .inr (.inr (.inl rfl))
  · exact .inr (.inr (.inr rfl))

theorem toNat_lt_of_foldChar {c d : Char} (h : foldChar c = d) (hd : d.toNat < 128)
    (hne : d ≠ 's' ∧ d ≠ 'i' ∧ d ≠ 'k') : c.toNat < 128 := by
  by_contra hc
  rcases foldChar_of_not_ascii (Nat.not_lt.mp hc) with hs | hi | hk | hsame
  · exact hne.1 (h.symm.trans hs)
  · exact hne.2.1 (h.symm.trans hi)
  · exact hne.2.2 (h.symm.trans hk)
  · rw [h] at hsame
    exact hc (hsame ▸ hd)

theorem foldChar_eq_iff {c d : Char} (hd : d = 'h' ∨ d = 'r') :
    foldChar c = d ↔ c = d ∨ c = d.toUpper := by
  constructor
  · intro h
    have hall : ∀ n < 128, foldChar (Char.ofNat n) = d → Char.ofNat n = d ∨ Char.ofNat n = d.toUpper := by
      rcases hd with rfl | rfl <;> decide
    have hascii : c.toNat < 128 := by
      rcases hd with rfl | rfl <;> exact toNat_lt_of_foldChar h (by decide) (by decide)
    have hc := hall c.toNat hascii
    rw [Char.ofNat_toNat] at hc
    exact hc h
  · rcases hd with rfl | rfl <;> rintro (rfl | rfl) <;> rfl

section RuleTag

variable {m n : RuleTag} {t r s p x : Text}

theorem span_gap (m : RuleTag) (s : Text) :
    (m.gap ++ (closing m.slash ++ s)).takeWhile isBlank = m.gap ∧
      (m.gap ++ (closing m.slash ++ s)).dropWhile isBlank = closing m.slash ++ s := by
  refine takeWhile_append_stop m.gap_blank ?_
  cases m.slash <;> simp [closing] <;> decide

theorem afterRule?_text (m : RuleTag) (s : Text) : afterRule? (m.text ++ s) = some s := by
  have hfold : foldChar m.first = 'h' ∧ foldChar m.second = 'r' :=
    ⟨(foldChar_eq_iff (.inl rfl)).mpr m.first_eq,(foldChar_eq_iff (.inr rfl)).mpr m.second_eq⟩
  simp only [RuleTag.text,List.cons_append,List.append_assoc,afterRule?,hfold,(span_gap m s).2]
  cases m.slash <;> rfl

theorem exists_ruleTag (h : afterRule? t = some s) : ∃ m : RuleTag, t = m.text ++ s := by
  unfold afterRule? at h
  split at h
  · rename_i c d rest
    split at h
    · rename_i hfold
      rw [Bool.and_eq_true,decide_eq_true_eq,decide_eq_true_eq,foldChar_eq_iff (.inl rfl),
        foldChar_eq_iff (.inr rfl)] at hfold
      obtain ⟨gap,u,rfl,-,hdrop,hgap,-⟩ := exists_span isBlank rest
      rw [hdrop] at h
      split at h
      · cases h
        exact ⟨⟨c,d,gap,false,hfold.1,hfold.2,hgap⟩,by simp [RuleTag.text,closing]⟩
      · cases h
        exact ⟨⟨c,d,gap,true,hfold.1,hfold.2,hgap⟩,by simp [RuleTag.text,closing]⟩
      · cases h
    · cases h
  · cases h

theorem afterRule?_eq_none_iff : afterRule? t = none ↔ ¬BeginsMark RuleTag.text t := by
  rw [Option.eq_none_iff_forall_ne_some]
  constructor
  · rintro h ⟨m,s,rfl⟩
    exact h s (afterRule?_text m s)
  · intro h s hs
    obtain ⟨m,hm⟩ := exists_ruleTag hs
    exact h ⟨m,s,hm⟩

/-- Two rule tags with the same place to begin are the same. -/
theorem unambiguous_text : Unambiguous RuleTag.text where
  ne_nil m := List.cons_ne_nil _ _
  eq_of_append := by
    intro m n r s h
    simp only [RuleTag.text,List.cons_append,List.append_assoc,List.cons.injEq,true_and] at h
    obtain ⟨hfirst,hsecond,hrest⟩ := h
    have hgap : m.gap = n.gap := by rw [← (span_gap m r).1,hrest,(span_gap n s).1]
    have hclosing : closing m.slash ++ r = closing n.slash ++ s := by
      rw [← (span_gap m r).2,hrest,(span_gap n s).2]
    have hslash : m.slash = n.slash := by
      cases hm : m.slash <;> cases hn : n.slash <;> simp [closing,hm,hn] at hclosing ⊢
    cases m
    cases n
    simp_all

/-- Only the first character of a rule tag opens one. -/
theorem RuleTag.not_mem_tail (m : RuleTag) :
    '<' ∉ m.first :: m.second :: (m.gap ++ closing m.slash) := by
  have hfirst : '<' ≠ m.first := by
    rcases m.first_eq with h | h <;> rw [h] <;> decide
  have hsecond : '<' ≠ m.second := by
    rcases m.second_eq with h | h <;> rw [h] <;> decide
  have hgap : '<' ∉ m.gap := fun h => absurd (m.gap_blank _ h) (by decide)
  have hclosing : '<' ∉ closing m.slash := by
    cases m.slash <;> decide
  simp [hfirst,hsecond,hgap,hclosing]

theorem RuleTag.exists_text_eq (m : RuleTag) : ∃ w, m.text = '<' :: (w ++ ['>']) := by
  cases hslash : m.slash with
  | true => exact ⟨m.first :: m.second :: (m.gap ++ ['/']),by simp [RuleTag.text,closing,hslash]⟩
  | false => exact ⟨m.first :: m.second :: m.gap,by simp [RuleTag.text,closing,hslash]⟩

theorem not_mem_of_text_eq (h : m.text = p ++ x) (hne : p ≠ []) : '<' ∉ x := by
  obtain ⟨c,p,rfl⟩ := List.exists_cons_of_ne_nil hne
  have htail : m.first :: m.second :: (m.gap ++ closing m.slash) = p ++ x := (List.cons.inj h).2
  exact fun hx => m.not_mem_tail (htail ▸ List.mem_append_right p hx)

theorem not_markIn_of_not_hasMark (h : ¬HasMark RuleTag.text p) (m : RuleTag) (s : Text) :
    ¬MarkIn RuleTag.text p (m.text ++ s) := by
  rintro ⟨a,c,b,rfl,n,u,hn⟩
  rw [← List.cons_append] at hn
  rcases List.append_eq_append_iff.mp hn with ⟨x,hx,hrest⟩ | ⟨x,hx,-⟩
  · cases x with
    | nil =>
      rw [List.append_nil] at hx
      exact h ⟨a,n,[],by rw [hx,List.append_nil]⟩
    | cons d x =>
      obtain ⟨rfl,-⟩ := List.cons.inj hrest
      exact not_mem_of_text_eq hx (List.cons_ne_nil c b) List.mem_cons_self
  · exact h ⟨a,n,x,by rw [hx]⟩

end RuleTag

/-! The pieces between rule tags. -/

section Pieces

variable {t s p last : Text} {ms : List (Text × RuleTag)}

theorem pieces_text_append (m : RuleTag) (s : Text) : pieces (m.text ++ s) = []::pieces s := by
  rw [pieces]
  split
  · rename_i r hr
    rw [afterRule?_text,Option.some.injEq] at hr
    rw [hr]
  · rename_i hnone
    rw [afterRule?_text] at hnone
    cases hnone

theorem pieces_nil : pieces [] = [[]] := by
  rw [pieces]
  rfl

theorem pieces_ne_nil (t : Text) : pieces t ≠ [] := by
  rw [pieces]
  split
  · exact List.cons_ne_nil _ _
  · split
    · exact List.cons_ne_nil _ _
    · split <;> exact List.cons_ne_nil _ _

theorem pieces_cons {c : Char} (h : ¬BeginsMark RuleTag.text (c::t)) :
    pieces (c::t) = (pieces t).modifyHead (c::·) := by
  obtain ⟨q,qs,hq⟩ := List.exists_cons_of_ne_nil (pieces_ne_nil t)
  rw [pieces]
  split
  · rename_i r hr
    rw [afterRule?_eq_none_iff.mpr h] at hr
    cases hr
  · simp only [hq,List.modifyHead_cons]

/-- What stands in front of all rule tags belongs to the first piece. -/
theorem pieces_append (h : ¬MarkIn RuleTag.text p s) :
    pieces (p ++ s) = (pieces s).modifyHead (p ++ ·) := by
  induction p with
  | nil => exact (congrFun List.modifyHead_id _).symm
  | cons c p ih =>
    rw [markIn_cons_iff,not_or] at h
    rw [List.cons_append,pieces_cons h.1,ih h.2,List.modifyHead_modifyHead]
    rfl

theorem pieces_append_text (m : RuleTag) (h : ¬MarkIn RuleTag.text p (m.text ++ s)) :
    pieces (p ++ (m.text ++ s)) = p::pieces s := by
  rw [pieces_append h,pieces_text_append,List.modifyHead_cons,List.append_nil]

theorem pieces_of_not_hasMark (h : ¬HasMark RuleTag.text p) : pieces p = [p] := by
  have hp := pieces_append fun hmark => h (hasMark_of_markIn hmark)
  rwa [List.append_nil,pieces_nil,List.modifyHead_cons,List.append_nil] at hp

theorem pieces_of_parted (h : Parted RuleTag.text t ms last) : pieces t = piecesOf ms last := by
  induction h with
  | last plain => exact pieces_of_not_hasMark fun hmark => plain (hmark.markIn unambiguous_text.ne_nil)
  | mark plain _ ih =>
    rw [pieces_append_text _ plain,ih]
    rfl

/-- The slides of some pieces. -/
def slidesOf (ps : List Text) : List Text := (ps.filter fun p => !allBlank p).map trim

theorem isEmpty_trim (p : Text) : (trim p).isEmpty = allBlank p := by
  rw [Bool.eq_iff_iff,List.isEmpty_iff,trim_eq_nil_iff]

theorem split_eq_slidesOf (t : Text) : split t = slidesOf (pieces t) := by
  have htest : (fun p : Text => !p.isEmpty) ∘ trim = fun p => !allBlank p :=
    funext fun p => congrArg not (isEmpty_trim p)
  rw [split,slidesOf,List.filter_map,htest]

theorem split_of_not_hasMark (h : ¬HasMark RuleTag.text p) : split p = slidesOf [p] := by
  rw [split_eq_slidesOf,pieces_of_not_hasMark h]

theorem split_append_text (h : ¬HasMark RuleTag.text p) (m : RuleTag) (s : Text) :
    split (p ++ (m.text ++ s)) = slidesOf [p] ++ split s := by
  have hplain := not_markIn_of_not_hasMark h m s
  rw [split_eq_slidesOf,pieces_append_text m hplain,split_eq_slidesOf,slidesOf,slidesOf,slidesOf,
    ← List.map_append,← List.filter_append,List.singleton_append]

end Pieces

/-! Joining slides. -/

section Join

variable {f t b e sep : Text} {fs : List Text}

/-- A rule tag has no blank at its ends, so that trimming a text leaves it whole. -/
theorem hasMark_trim_iff : HasMark RuleTag.text (trim t) ↔ HasMark RuleTag.text t := by
  constructor
  · rintro ⟨a,m,b,h⟩
    obtain ⟨c,d,ht,-,-⟩ := exists_trim_append t
    rw [h] at ht
    exact ⟨c ++ a,m,b ++ d,by simpa using ht⟩
  · rintro ⟨a,m,b,rfl⟩
    obtain ⟨w,hw⟩ := m.exists_text_eq
    refine ⟨trimStart a,m,trimEnd b,?_⟩
    have htrim := trim_append_cons_append (c := '<') (d := '>') (by decide) (by decide) a w b
    simpa [hw] using htrim

theorem hasMark_blank_iff (hb : ∀ c ∈ b, isBlank c = true) (he : ∀ c ∈ e, isBlank c = true) (t : Text) :
    HasMark RuleTag.text (b ++ t ++ e) ↔ HasMark RuleTag.text t := by
  rw [← hasMark_trim_iff,trim_append_append hb he,hasMark_trim_iff]

/-- A slide between blanks. -/
theorem slidesOf_blank (h : IsSlide f) (hb : ∀ c ∈ b, isBlank c = true) (he : ∀ c ∈ e, isBlank c = true) :
    slidesOf [b ++ f ++ e] = [f] := by
  have htrim : trim (b ++ f ++ e) = f := (trim_append_append hb he f).trans h.trimmed
  have hsolid : allBlank (b ++ f ++ e) = false := by
    rw [← isEmpty_trim,htrim]
    exact List.isEmpty_eq_false_iff.mpr h.ne_nil
  rw [slidesOf,List.filter_singleton,hsolid]
  exact congrArg ([·]) htrim

/-- A text without one of the brackets holds at most parts of rule tags. -/
theorem not_hasMark_of_not_mem (h : '<' ∉ t ∨ '>' ∉ t) : ¬HasMark RuleTag.text t := by
  rintro ⟨a,m,b,rfl⟩
  obtain ⟨w,hw⟩ := m.exists_text_eq
  rcases h with h | h <;> exact h (by simp [hw])

/-- Slides joined by a rule, whatever blanks the first one has in front. -/
theorem split_blank_join (hfs : ∀ f ∈ fs, IsSlide f) (hsep : IsRule sep)
    (hb : ∀ c ∈ b, isBlank c = true) : split (b ++ join sep fs) = fs := by
  obtain ⟨m,hbefore,hbehind⟩ := hsep
  rename_i before behind
  induction fs generalizing b with
  | nil =>
    have hwhole : ¬HasMark RuleTag.text b := by
      have hblank := hasMark_blank_iff hb (e:=[]) (by simp) []
      rw [List.append_nil,List.append_nil] at hblank
      exact hblank.not.mpr (not_hasMark_of_not_mem (by simp))
    have hall : allBlank b = true := List.all_eq_true.mpr hb
    rw [join,List.append_nil,split_of_not_hasMark hwhole,slidesOf,List.filter_singleton,hall]
    rfl
  | cons f fs ih =>
    obtain ⟨hf,hrest⟩ := List.forall_mem_cons.mp hfs
    have hwhole : ∀ {e}, (∀ c ∈ e, isBlank c = true) → ¬HasMark RuleTag.text (b ++ f ++ e) :=
      fun he => (hasMark_blank_iff hb he f).not.mpr hf.whole
    cases fs with
    | nil =>
      have hnil : ∀ c ∈ ([] : Text), isBlank c = true := by simp
      rw [join,← List.append_nil (b ++ f),split_of_not_hasMark (hwhole hnil),slidesOf_blank hf hb hnil]
    | cons g gs =>
      have happ : b ++ join (before ++ (m.text ++ behind)) (f::g::gs) = b ++ f ++ before ++
          (m.text ++ (behind ++ join (before ++ (m.text ++ behind)) (g::gs))) := by
        simp [join]
      rw [happ,split_append_text (hwhole hbefore),slidesOf_blank hf hb hbefore,ih hrest hbehind,
        List.singleton_append]

theorem split_join (hfs : ∀ f ∈ fs, IsSlide f) (hsep : IsRule sep) : split (join sep fs) = fs :=
  split_blank_join (b:=[]) hfs hsep (by simp)

theorem isSlide_of_mem_split (h : f ∈ split t) : IsSlide f := by
  obtain ⟨ms,last,hparted⟩ := exists_parted unambiguous_text.ne_nil t
  rw [split_eq_slidesOf,pieces_of_parted hparted,slidesOf] at h
  obtain ⟨p,hp,rfl⟩ := List.mem_map.mp h
  obtain ⟨hmem,hsolid⟩ := List.mem_filter.mp hp
  refine ⟨fun hnil => ?_,trim_trim p,?_⟩
  · rw [trim_eq_nil_iff.mp hnil] at hsolid
    cases hsolid
  · rw [hasMark_trim_iff]
    exact hparted.not_hasMark_of_mem unambiguous_text.ne_nil p hmem

/-- A document is cut at its rule tags from left to right, in one way, and no slide holds a rule tag.
Slides joined by a rule are cut apart again. -/
theorem split_between_rules :
    (∀ t, (∃ ms last, Parted RuleTag.text t ms last ∧
        (∀ ms' last', Parted RuleTag.text t ms' last' → ms' = ms ∧ last' = last) ∧
        split t = ((piecesOf ms last).filter fun p => !allBlank p).map trim) ∧
      (∀ f ∈ split t, ¬HasMark RuleTag.text f) ∧
      ∀ sep, IsRule sep → split (join sep (split t)) = split t) ∧
    ∀ sep fs, IsRule sep → (∀ f ∈ fs, IsSlide f) → split (join sep fs) = fs := by
  refine ⟨fun t => ⟨?_,fun f hf => (isSlide_of_mem_split hf).whole,fun sep hsep => ?_⟩,
    fun sep fs hsep hfs => split_join hfs hsep⟩
  · obtain ⟨ms,last,h⟩ := exists_parted unambiguous_text.ne_nil t
    refine ⟨ms,last,h,fun ms' last' h' => h.unique unambiguous_text h',?_⟩
    rw [split_eq_slidesOf,pieces_of_parted h,slidesOf]
  · exact split_join (fun f hf => isSlide_of_mem_split hf) hsep

/-- Two slides with the beginning and the end of a rule tag where they meet. -/
theorem split_between_rules_partial :
    let sep := "\n<HR\t/>\n".toList
    let fs := ["a <hr".toList,"/> b".toList]
    IsRule sep ∧ (∀ f ∈ fs, IsSlide f) ∧ split (join sep fs) = fs := by
  have hsep : IsRule "\n<HR\t/>\n".toList :=
    @IsRule.intro ⟨'H','R',['\t'],true,.inr rfl,.inr rfl,List.forall_mem_singleton.mpr rfl⟩
      ['\n'] ['\n'] (List.forall_mem_singleton.mpr rfl) (List.forall_mem_singleton.mpr rfl)
  have hfs : ∀ f ∈ ["a <hr".toList,"/> b".toList], IsSlide f := by
    refine List.forall_mem_cons.mpr ⟨⟨by decide,by decide,not_hasMark_of_not_mem ?_⟩,
      List.forall_mem_singleton.mpr ⟨by decide,by decide,not_hasMark_of_not_mem ?_⟩⟩
    · exact .inr (by decide)
    · exact .inl (by decide)
  exact ⟨hsep,hfs,split_between_rules.2 _ _ hsep hfs⟩

end Join
end Slide
end Longform
