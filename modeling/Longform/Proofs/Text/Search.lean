import Longform.Text.Basic

/-! What plain search finds, read backwards: the text is what was found with its surroundings. -/
namespace Longform
namespace Text

theorem eq_append_of_after? {p t r : Text} (h : after? p t = some r) : t = p ++ r := by
  induction p generalizing t with
  | nil =>
    rw [after?,Option.some.injEq] at h
    exact h
  | cons c p ih =>
    cases t with
    | nil => exact nomatch h
    | cons d t =>
      rw [after?] at h
      split at h
      · rename_i hc
        rw [hc,List.cons_append,← ih h]
      · exact nomatch h

theorem after?_append (p t : Text) : after? p (p ++ t) = some t := by
  induction p with
  | nil => cases t <;> rfl
  | cons c p ih => simp [after?,ih]

theorem after?_eq_some_iff {p t r : Text} : after? p t = some r ↔ t = p ++ r := by
  constructor
  · exact eq_append_of_after?
  · rintro rfl
    exact after?_append p r

theorem startsWith_iff {p t : Text} : startsWith p t = true ↔ ∃ r, t = p ++ r := by
  rw [startsWith,List.isPrefixOf_iff_prefix]
  exact ⟨fun ⟨r,hr⟩ => ⟨r,hr.symm⟩,fun ⟨r,hr⟩ => ⟨r,hr.symm⟩⟩

theorem after?_eq_none {p t : Text} (h : startsWith p t = false) : after? p t = none := by
  cases hafter : after? p t with
  | none => rfl
  | some r =>
    rw [startsWith_iff.mpr ⟨r,eq_append_of_after? hafter⟩] at h
    cases h

/-- A text without the separator begins in front of it or not at all. -/
theorem startsWith_append_cons {sep : Char} {p : Text} (h : sep ∉ p) (t u : Text) :
    startsWith p (t ++ sep::u) = startsWith p t := by
  rw [Bool.eq_iff_iff,startsWith_iff,startsWith_iff]
  constructor
  · rintro ⟨r,hr⟩
    rcases List.append_eq_append_iff.mp hr with ⟨x,hp,hx⟩ | ⟨x,ht,-⟩
    · cases x with
      | nil => exact ⟨[],by rw [hp,List.append_nil,List.append_nil]⟩
      | cons d x =>
        obtain ⟨rfl,-⟩ := List.cons.inj hx
        exact absurd (by simp [hp]) h
    · exact ⟨x,ht⟩
  · rintro ⟨r,rfl⟩
    exact ⟨r ++ sep::u,List.append_assoc p r _⟩

/-- A text without the separator occurs on one side of it. -/
theorem contains_append_cons {sep : Char} {p : Text} (hne : p ≠ []) (h : sep ∉ p) (t u : Text) :
    contains p (t ++ sep::u) = (contains p t || contains p u) := by
  obtain ⟨d,p,rfl⟩ := List.exists_cons_of_ne_nil hne
  induction t with
  | nil =>
    have hstart := startsWith_append_cons h [] u
    rw [List.nil_append] at hstart
    show (startsWith (d::p) (sep::u) || contains (d::p) u) = _
    rw [hstart]
    rfl
  | cons c t ih =>
    have hstart := startsWith_append_cons h (c::t) u
    rw [List.cons_append] at hstart
    rw [List.cons_append,contains,hstart,ih,contains,Bool.or_assoc]

/-- What is not found at the beginning of a line is not found with the end of the line either. -/
theorem after?_append_of_none {p l z : Text} (hp : '\n' ∉ p) (hz : ∀ c ∈ z.head?, c = '\n')
    (h : after? p l = none) : after? p (l ++ z) = none := by
  rw [Option.eq_none_iff_forall_ne_some]
  intro r hr
  have happ := after?_eq_some_iff.mp hr
  rcases List.append_eq_append_iff.mp happ with ⟨c,hc,hz'⟩ | ⟨c,hc,-⟩
  · cases c with
    | nil =>
      rw [List.append_nil] at hc
      exact absurd (after?_eq_some_iff.mpr (by simp [hc])) (Option.eq_none_iff_forall_ne_some.mp h [])
    | cons d c =>
      have hd : d = '\n' := hz d (by simp [hz'])
      exact hp (by simp [hc,hd])
  · exact absurd (after?_eq_some_iff.mpr hc) (Option.eq_none_iff_forall_ne_some.mp h c)

theorem eq_append_of_cutAt {sep : Char} {t a b : Text} (h : cutAt sep t = some (a,b)) :
    t = a ++ sep::b ∧ sep ∉ a := by
  induction t generalizing a with
  | nil => exact nomatch h
  | cons c r ih =>
    rw [cutAt] at h
    split at h
    · rename_i hc
      cases h
      simp [hc]
    · rename_i hc
      obtain ⟨⟨a',b'⟩,hr,he⟩ := Option.map_eq_some_iff.mp h
      cases he
      obtain ⟨happ,hmem⟩ := ih hr
      refine ⟨by rw [happ,List.cons_append],?_⟩
      rw [List.mem_cons,not_or]
      exact ⟨Ne.symm hc,hmem⟩

theorem cutAt_append {sep : Char} {t : Text} (h : sep ∉ t) (rest : Text) :
    cutAt sep (t ++ sep::rest) = some (t,rest) := by
  induction t with
  | nil => simp [cutAt]
  | cons c t ih =>
    rw [List.mem_cons,not_or] at h
    simp only [List.cons_append,cutAt,if_neg (Ne.symm h.1),ih h.2,Option.map_some]

theorem cutAt_of_not_mem {sep : Char} {t : Text} (h : sep ∉ t) : cutAt sep t = none := by
  cases hcut : cutAt sep t with
  | none => rfl
  | some p =>
    rw [(eq_append_of_cutAt hcut).1] at h
    simp at h

theorem takeWhile_append_stop {p : Char → Bool} {s r : Text} (h : ∀ c ∈ s, p c = true)
    (hstop : ∀ c ∈ r.head?, p c = false) :
    (s ++ r).takeWhile p = s ∧ (s ++ r).dropWhile p = r := by
  rw [List.takeWhile_append_of_pos h,List.dropWhile_append_of_pos h]
  cases r with
  | nil => simp
  | cons c r => simp [hstop c (by simp)]

theorem not_mem_takeWhile {p : Char → Bool} {c : Char} (h : p c = false) (t : Text) :
    c ∉ t.takeWhile p := by
  intro hm
  simpa [h] using List.all_eq_true.mp List.all_takeWhile c hm

/-- A text is cut where its first characters of one kind end. -/
theorem exists_span (p : Char → Bool) (t : Text) : ∃ a b, t = a ++ b ∧ t.takeWhile p = a ∧
    t.dropWhile p = b ∧ (∀ c ∈ a, p c = true) ∧ ∀ c ∈ b.head?, p c = false := by
  refine ⟨_,_,List.takeWhile_append_dropWhile.symm,rfl,rfl,List.all_eq_true.mp List.all_takeWhile,?_⟩
  intro c hc
  have hnot := List.head?_dropWhile_not p t
  rw [Option.mem_def.mp hc] at hnot
  simpa using hnot

/-- The first line of a text, and what follows it. -/
theorem line_append (t : Text) : t = t.takeWhile (· ≠ '\n') ++ t.dropWhile (· ≠ '\n') ∧
    '\n' ∉ t.takeWhile (· ≠ '\n') ∧ ∀ c ∈ (t.dropWhile (· ≠ '\n')).head?, c = '\n' := by
  obtain ⟨a,b,ht,htake,hdrop,ha,hb⟩ := exists_span (fun c => decide (c ≠ '\n')) t
  rw [htake,hdrop]
  exact ⟨ht,fun h => by simpa using ha _ h,fun c hc => by simpa using hb c hc⟩

end Text
end Longform
