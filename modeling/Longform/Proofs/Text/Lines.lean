import Longform.Text.Basic

/-! Lines of a text. Cutting a text into its lines and joining them are inverse, and a line feed is
where two texts of lines meet. -/
namespace Longform
namespace Text

theorem splitAt_eq_splitOn (sep : Char) (t : Text) : splitAt sep t = t.splitOn sep := by
  induction t with
  | nil => exact (List.splitOn_nil sep).symm
  | cons c r ih =>
    rw [List.splitOn_cons_eq_if_modifyHead,← ih,splitAt]
    by_cases hc : c = sep
    · rw [if_pos hc,if_pos (beq_iff_eq.mpr hc)]
    · rw [if_neg hc,if_neg (by simpa using hc)]
      cases hr : splitAt sep r with
      | nil => exact absurd (ih.symm.trans hr) (List.splitOn_ne_nil sep r)
      | cons l ls => rfl

theorem join_eq_intercalate (sep : Text) (ps : List Text) : join sep ps = sep.intercalate ps := by
  induction ps using join.induct with
  | case1 => rfl
  | case2 p => rw [List.intercalate_singleton,join]
  | case3 p q ps ih => rw [List.intercalate_cons_cons,join,ih]

theorem lines_append_newline (a b : Text) : lines (a ++ '\n' :: b) = lines a ++ lines b := by
  simp only [lines,splitAt_eq_splitOn]
  exact List.splitOn_append_cons_self a b

theorem lines_of_not_mem {t : Text} (h : '\n' ∉ t) : lines t = [t] :=
  (splitAt_eq_splitOn '\n' t).trans (List.splitOn_eq_singleton h)

theorem oneLine?_of_not_mem {t : Text} (h : '\n' ∉ t) : oneLine? t = some t := by
  induction t with
  | nil => rfl
  | cons c r ih =>
    rw [List.mem_cons,not_or] at h
    rw [oneLine?,if_neg (Ne.symm h.1),ih h.2]
    · rfl
    · rintro rfl rfl
      exact h.1 rfl

theorem of_oneLine?_eq_some {t l : Text} (h : oneLine? t = some l) :
    '\n' ∉ l ∧ (t = l ∨ t = l ++ ['\n']) := by
  induction t using oneLine?.induct generalizing l with
  | case1 =>
    cases h
    exact ⟨List.not_mem_nil,.inl rfl⟩
  | case2 =>
    cases h
    exact ⟨List.not_mem_nil,.inr rfl⟩
  | case3 r hne => simp [oneLine?] at h
  | case4 c r hne hc ih =>
    rw [oneLine?,if_neg hc] at h
    · obtain ⟨l',hl',rfl⟩ := Option.map_eq_some_iff.mp h
      obtain ⟨hmem,ht⟩ := ih hl'
      refine ⟨by simpa [Ne.symm hc] using hmem,ht.imp (congrArg (c::·)) (congrArg (c::·))⟩
    · exact hne

/-- Lines are made of the characters of the text, its line feeds excepted. -/
theorem of_mem_of_mem_lines {t l : Text} {c : Char} (hl : l ∈ lines t) (hc : c ∈ l) :
    c ∈ t ∧ c ≠ '\n' := by
  by_cases h : '\n' ∈ t
  · obtain ⟨a,b,ht,ha⟩ := List.eq_append_cons_of_mem h
    have hlen : b.length < t.length := by simp [ht]; omega
    rw [ht,lines_append_newline,lines_of_not_mem ha] at hl
    rcases List.mem_cons.mp hl with rfl | hl
    · exact ⟨ht ▸ List.mem_append_left _ hc,fun he => ha (he ▸ hc)⟩
    · obtain ⟨hb,hne⟩ := of_mem_of_mem_lines hl hc
      exact ⟨ht ▸ List.mem_append_right _ (List.mem_cons_of_mem _ hb),hne⟩
  · rw [lines_of_not_mem h,List.mem_singleton] at hl
    subst hl
    exact ⟨hc,fun he => h (he ▸ hc)⟩
termination_by t.length

theorem newline_not_mem_lines {t l : Text} (hl : l ∈ lines t) : '\n' ∉ l :=
  fun hc => (of_mem_of_mem_lines hl hc).2 rfl

theorem joinLines_lines (t : Text) : joinLines (lines t) = t := by
  rw [joinLines,join_eq_intercalate,lines,splitAt_eq_splitOn]
  exact List.intercalate_splitOn '\n'

theorem lines_joinLines {ls : List Text} (hne : ls ≠ []) (h : ∀ l ∈ ls, '\n' ∉ l) :
    lines (joinLines ls) = ls := by
  rw [lines,splitAt_eq_splitOn,joinLines,join_eq_intercalate]
  exact List.splitOn_intercalate '\n' h hne

/-- Texts that are joined keep their lines. -/
theorem lines_joinLines_flatMap {ts : List Text} (h : ts ≠ []) :
    lines (joinLines ts) = ts.flatMap lines := by
  induction ts with
  | nil => exact absurd rfl h
  | cons t ts ih =>
    cases ts with
    | nil => simp [joinLines,join]
    | cons u us =>
      have hjoin : joinLines (t::u::us) = t ++ '\n' :: joinLines (u::us) := by simp [joinLines,join]
      rw [hjoin,lines_append_newline,ih (List.cons_ne_nil u us)]
      rfl

theorem flatMap_lines {ls : List Text} (h : ∀ l ∈ ls, '\n' ∉ l) : ls.flatMap lines = ls := by
  rw [List.flatMap_def,List.map_congr_left fun l hl => lines_of_not_mem (h l hl),← List.flatMap_def]
  simp

/-- Lines as they continue a text, each behind a line feed. -/
def below (ls : List Text) : Text := ls.flatMap ('\n' :: ·)

@[simp] theorem below_nil : below [] = [] := rfl

theorem below_cons (l : Text) (ls : List Text) : below (l::ls) = '\n' :: (l ++ below ls) := rfl

/-- The lines below a line are nothing, or begin with a line feed. -/
theorem head?_below (ls : List Text) : ∀ c ∈ (below ls).head?, c = '\n' := by
  cases ls with
  | nil => simp
  | cons l ls => simp [below_cons]

theorem joinLines_cons (l : Text) (ls : List Text) : joinLines (l::ls) = l ++ below ls := by
  rw [joinLines,join_eq_intercalate]
  induction ls generalizing l with
  | nil => simp [below]
  | cons k ls ih => rw [List.intercalate_cons_cons,ih,List.append_assoc]; rfl

theorem below_eq {ls : List Text} (h : ls ≠ []) : below ls = '\n' :: joinLines ls := by
  cases ls with
  | nil => exact absurd rfl h
  | cons l ls => rw [joinLines_cons]; rfl

theorem below_append (ls ks : List Text) : below (ls ++ ks) = below ls ++ below ks :=
  List.flatMap_append

theorem joinLines_eq_tail (ls : List Text) : joinLines ls = (below ls).tail := by
  cases ls with
  | nil => rfl
  | cons l ls => rw [below_eq (List.cons_ne_nil l ls)]; rfl

end Text
end Longform
