import Longform.Text.Basic

/-! Trimming takes blanks off the ends of a text and nothing else. -/
namespace Longform
namespace Text

theorem exists_dropEndWhile_append (p : Char → Bool) (t : Text) :
    ∃ b, t = dropEndWhile p t ++ b ∧ ∀ c ∈ b, p c = true := by
  induction t with
  | nil => exact ⟨[],by simp [dropEndWhile]⟩
  | cons c r ih =>
    obtain ⟨b,hr,hb⟩ := ih
    unfold dropEndWhile
    rcases hd : dropEndWhile p r with _ | ⟨d,s⟩
    · rw [hd,List.nil_append] at hr
      subst hr
      by_cases hc : p c = true
      · exact ⟨c::r,by simp [hc],by simpa [hc] using hb⟩
      · exact ⟨r,by simp [hc],hb⟩
    · exact ⟨b,by rw [hr,hd]; rfl,hb⟩

theorem exists_trim_append (t : Text) : ∃ a b, t = a ++ trim t ++ b ∧
    (∀ c ∈ a, isBlank c = true) ∧ ∀ c ∈ b, isBlank c = true := by
  obtain ⟨b,hb,hblank⟩ := exists_dropEndWhile_append isBlank (trimStart t)
  refine ⟨t.takeWhile isBlank,b,?_,List.all_eq_true.mp List.all_takeWhile,hblank⟩
  calc
    t = t.takeWhile isBlank ++ trimStart t := List.takeWhile_append_dropWhile.symm
    _ = t.takeWhile isBlank ++ (trim t ++ b) := congrArg _ hb
    _ = t.takeWhile isBlank ++ trim t ++ b := (List.append_assoc ..).symm

theorem mem_trim {t : Text} {c : Char} (hc : c ∈ t) (hb : isBlank c = false) : c ∈ trim t := by
  obtain ⟨a,b,ht,ha,hblank⟩ := exists_trim_append t
  rw [ht,List.mem_append,List.mem_append] at hc
  rcases hc with (hc | hc) | hc
  · simp [ha c hc] at hb
  · exact hc
  · simp [hblank c hc] at hb

theorem mem_of_mem_trim {t : Text} {c : Char} (hc : c ∈ trim t) : c ∈ t := by
  obtain ⟨a,b,ht,_⟩ := exists_trim_append t
  rw [ht]
  simp [hc]

theorem trimEnd_append {e : Text} (h : ∀ c ∈ e, isBlank c = true) (t : Text) :
    trimEnd (t ++ e) = trimEnd t := by
  unfold trimEnd
  induction t with
  | nil =>
    induction e with
    | nil => rfl
    | cons c e ih =>
      obtain ⟨hc,he⟩ := List.forall_mem_cons.mp h
      have hnil : dropEndWhile isBlank e = [] := ih he
      simp [dropEndWhile,hnil,hc]
  | cons c t ih => rw [List.cons_append,dropEndWhile,dropEndWhile,ih]

/-- Blanks around a text are lost when it is trimmed. -/
theorem trim_append_append {b e : Text} (hb : ∀ c ∈ b, isBlank c = true)
    (he : ∀ c ∈ e, isBlank c = true) (t : Text) : trim (b ++ t ++ e) = trim t := by
  unfold trim trimStart
  rw [List.append_assoc,List.dropWhile_append_of_pos hb,List.dropWhile_append]
  split
  · rename_i hnil
    have hend : e.dropWhile isBlank = [] := by
      rw [← List.append_nil e,List.dropWhile_append_of_pos he]
      rfl
    rw [hend,List.isEmpty_iff.mp hnil]
  · exact trimEnd_append he _

theorem trim_trimEnd (t : Text) : trim (trimEnd t) = trim t := by
  obtain ⟨b,hb,hblank⟩ := exists_dropEndWhile_append isBlank t
  have htrim := trim_append_append (b:=[]) (by simp) hblank (trimEnd t)
  rw [List.nil_append] at htrim
  rw [← htrim]
  exact congrArg trim hb.symm

theorem dropEndWhile_append_cons {p : Char → Bool} {c : Char} (hc : p c = false) (u v : Text) :
    dropEndWhile p (u ++ c::v) = u ++ c::dropEndWhile p v := by
  induction u with
  | nil =>
    rw [List.nil_append,List.nil_append,dropEndWhile]
    cases dropEndWhile p v <;> simp [hc]
  | cons d u ih =>
    rw [List.cons_append,dropEndWhile,ih]
    cases u <;> simp

/-- A text is trimmed on each side of a character that is no blank. -/
theorem trim_append_cons {c : Char} (hc : isBlank c = false) (u v : Text) :
    trim (u ++ c::v) = trimStart u ++ c::trimEnd v := by
  have hstart : trimStart (u ++ c::v) = trimStart u ++ c::v := by
    unfold trimStart
    rw [List.dropWhile_append]
    split
    · rename_i hnil
      simp [List.isEmpty_iff.mp hnil,hc]
    · rfl
  rw [trim,hstart]
  exact dropEndWhile_append_cons hc (trimStart u) v

/-- What neither begins nor ends with a blank is kept whole, whatever stands around it. -/
theorem trim_append_cons_append {c d : Char} (hc : isBlank c = false) (hd : isBlank d = false)
    (u t v : Text) : trim (u ++ c::(t ++ d::v)) = trimStart u ++ c::(t ++ d::trimEnd v) := by
  rw [trim_append_cons hc,show trimEnd (t ++ d::v) = _ from dropEndWhile_append_cons hd t v]
  rfl

theorem trim_cons_append {c d : Char} (hc : isBlank c = false) (hd : isBlank d = false) (t : Text) :
    trim (c::(t ++ [d])) = c::(t ++ [d]) := trim_append_cons_append hc hd [] t []

theorem trim_trim (t : Text) : trim (trim t) = trim t := by
  obtain ⟨a,b,ht,ha,hb⟩ := exists_trim_append t
  have htrim := trim_append_append ha hb (trim t)
  rwa [← ht,eq_comm] at htrim

theorem trim_of_allBlank {t : Text} (h : ∀ c ∈ t, isBlank c = true) : trim t = [] := by
  have htrim := trim_append_append h (e:=[]) (by simp) []
  simpa [trim,trimStart,trimEnd,dropEndWhile] using htrim

theorem trim_eq_nil_iff {t : Text} : trim t = [] ↔ allBlank t = true := by
  unfold allBlank
  rw [List.all_eq_true]
  constructor
  · intro h c hc
    cases hblank : isBlank c with
    | true => rfl
    | false =>
      have hmem := mem_trim hc hblank
      simp [h] at hmem
  · exact trim_of_allBlank

/-- No blank begins what is left of a text. -/
theorem isBlank_of_trim_eq_cons {t r : Text} {c : Char} (h : trim t = c::r) : isBlank c = false := by
  obtain ⟨b,hb,-⟩ := exists_dropEndWhile_append isBlank (trimStart t)
  have hhead := List.head?_dropWhile_not isBlank t
  rw [show t.dropWhile isBlank = trim t ++ b from hb,h] at hhead
  simpa using hhead

/-- No blank ends what is left of a text. -/
theorem isBlank_of_mem_getLast? {t u v : Text} {c : Char} (h : trim t = u ++ v)
    (hc : c ∈ v.getLast?) : isBlank c = false := by
  obtain ⟨w,rfl⟩ := List.getLast?_eq_some_iff.mp hc
  cases hblank : isBlank c with
  | false => rfl
  | true =>
    -- the blank at the end would be lost when the text is trimmed again
    have hagain : trim t = trim (u ++ w) := by
      rw [← trim_trim t,h]
      simpa using trim_append_append (b:=[]) (e:=[c]) (by simp) (by simpa using hblank) (u ++ w)
    obtain ⟨a,b,hw,-⟩ := exists_trim_append (u ++ w)
    have hlen := congrArg List.length (hagain.symm.trans h)
    have hlen' := congrArg List.length hw
    simp only [List.length_append,List.length_singleton] at hlen hlen'
    omega

/-- A text without blanks at its ends is trimmed. -/
theorem trim_eq_self {t : Text} (hhead : ∀ c ∈ t.head?, isBlank c = false)
    (hlast : ∀ c ∈ t.getLast?, isBlank c = false) : trim t = t := by
  cases t with
  | nil => rfl
  | cons c r =>
    have hc : isBlank c = false := hhead c rfl
    rcases List.eq_nil_or_concat r with rfl | ⟨m,d,hr⟩
    · simpa [trimStart,trimEnd,dropEndWhile] using trim_append_cons hc [] []
    · rw [List.concat_eq_append] at hr
      have hd : isBlank d = false := hlast d (hr ▸ List.getLast?_concat (l:=c::m))
      exact hr ▸ trim_cons_append hc hd m

end Text
end Longform
