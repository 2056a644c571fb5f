import Mathlib.Data.List.DropRight
import Longform.Markdown.Attribution

/-! The line of a paragraph that attributes a quote: the first one whose first child is a text that
begins with the marker. Splitting a paragraph finds it, and nothing else. -/
namespace Longform
namespace Attribution

/-- A marked line begins behind `front`. `atStart` tells whether a line begins where `front` does. -/
def MarkedLine (marker : Text) (atStart : Bool) (front line : List Token) : Prop :=
  (front.getLast?.map Token.isBreak).getD atStart = true ∧
    ∃ t ∈ line.head?, startsWithMarker marker t = true

/-- The first marked line of some children is `line`. -/
structure FirstMarked (marker : Text) (atStart : Bool) (children front line : List Token) : Prop where
  eq_append : children = front ++ line
  marked : MarkedLine marker atStart front line
  first : ∀ front' line', children = front' ++ line' → MarkedLine marker atStart front' line' →
    front.length ≤ front'.length

section Line

variable {marker : Text} {atStart : Bool} {t : Token} {children front line : List Token}

theorem markedLine_nil_iff : MarkedLine marker atStart [] (t::line) ↔
    (atStart && startsWithMarker marker t) = true := by
  simp [MarkedLine]

theorem markedLine_cons_iff : MarkedLine marker atStart (t::front) line ↔
    MarkedLine marker t.isBreak front line := by
  rw [MarkedLine,MarkedLine,List.getLast?_cons]
  cases front.getLast? <;> simp

theorem markerLine?_eq_none (h : markerLine? marker atStart children = none) :
    ∀ front line, children = front ++ line → ¬MarkedLine marker atStart front line := by
  induction children generalizing atStart with
  | nil =>
    rintro front line happ ⟨-,t,ht,-⟩
    obtain ⟨-,rfl⟩ := List.append_eq_nil_iff.mp happ.symm
    exact nomatch ht
  | cons u children ih =>
    rw [markerLine?] at h
    split at h
    · exact nomatch h
    rename_i hu
    rintro front line happ hline
    cases front with
    | nil =>
      obtain rfl : line = u::children := happ.symm
      exact hu (markedLine_nil_iff.mp hline)
    | cons v front =>
      obtain ⟨rfl,htail⟩ := List.cons_eq_cons.mp happ
      exact ih (Option.map_eq_none_iff.mp h) front line htail (markedLine_cons_iff.mp hline)

theorem firstMarked_of_markerLine? {n : Nat} (h : markerLine? marker atStart children = some n) :
    FirstMarked marker atStart children (children.take n) (children.drop n) ∧ n < children.length := by
  induction children generalizing atStart n with
  | nil => exact nomatch h
  | cons u children ih =>
    rw [markerLine?] at h
    split at h
    · rename_i hu
      cases h
      exact ⟨⟨rfl,markedLine_nil_iff.mpr hu,fun _ _ _ _ => Nat.zero_le _⟩,Nat.succ_pos _⟩
    rename_i hu
    obtain ⟨m,hm,rfl⟩ := Option.map_eq_some_iff.mp h
    obtain ⟨⟨-,hmarked,hfirst⟩,hlt⟩ := ih hm
    refine ⟨⟨(List.take_append_drop _ _).symm,markedLine_cons_iff.mpr hmarked,?_⟩,
      Nat.succ_lt_succ hlt⟩
    intro front line happ hline
    cases front with
    | nil =>
      obtain rfl : line = u::children := happ.symm
      exact absurd (markedLine_nil_iff.mp hline) hu
    | cons v front =>
      obtain ⟨rfl,htail⟩ := List.cons_eq_cons.mp happ
      exact Nat.succ_le_succ (hfirst front line htail (markedLine_cons_iff.mp hline))

end Line

section Breaks

theorem dropEndBreaks_concat (ts : List Token) (t : Token) :
    dropEndBreaks (ts ++ [t]) = if t.isBreak then dropEndBreaks ts else ts ++ [t] := by
  induction ts with
  | nil => rfl
  | cons u ts ih =>
    rw [List.cons_append,dropEndBreaks,ih]
    by_cases ht : t.isBreak = true
    · rw [if_pos ht,if_pos ht,dropEndBreaks]
    · rw [if_neg ht,if_neg ht]
      cases ts <;> rfl

/-- The children that are kept are those in front of the last breaks. -/
theorem dropEndBreaks_eq_rdropWhile (ts : List Token) :
    dropEndBreaks ts = ts.rdropWhile Token.isBreak := by
  induction ts using List.reverseRecOn with
  | nil => rfl
  | append_singleton ts t ih =>
    rw [dropEndBreaks_concat,List.rdropWhile_concat,ih]

end Breaks

section Split

variable {marker : Text} {children kept caption : List Token}

theorem split?_eq_none_iff : split? marker children = none ↔
    ∀ front line, children = front ++ line → ¬MarkedLine marker true front line := by
  unfold split?
  rcases h : markerLine? marker true children with _ | n
  · exact iff_of_true rfl (markerLine?_eq_none h)
  · obtain ⟨hfirst,hlt⟩ := firstMarked_of_markerLine? h
    refine iff_of_false ?_ fun hnone => hnone _ _ hfirst.eq_append hfirst.marked
    simp only [List.drop_eq_getElem_cons hlt]
    exact Option.some_ne_none _

/-- A paragraph is split at its first marked line. -/
theorem exists_firstMarked (h : split? marker children = some (kept,caption)) :
    ∃ front first rest, FirstMarked marker true children front (first::rest) ∧
      kept = front.rdropWhile Token.isBreak ∧
      caption = Token.ofText (afterMarker marker first.content)::rest := by
  unfold split? at h
  rcases hn : markerLine? marker true children with _ | n <;> rw [hn] at h
  · exact nomatch h
  obtain ⟨hfirst,hlt⟩ := firstMarked_of_markerLine? hn
  rw [List.drop_eq_getElem_cons hlt] at hfirst
  simp only [List.drop_eq_getElem_cons hlt] at h
  cases h
  exact ⟨_,_,_,hfirst,dropEndBreaks_eq_rdropWhile _,rfl⟩

/-- The first marked line is one line. -/
theorem FirstMarked.unique {atStart : Bool} {front front' line line' : List Token}
    (h : FirstMarked marker atStart children front line)
    (h' : FirstMarked marker atStart children front' line') : front = front' ∧ line = line' := by
  have hle := h.first front' line' h'.eq_append h'.marked
  have hle' := h'.first front line h.eq_append h.marked
  exact List.append_inj (h.eq_append.symm.trans h'.eq_append) (Nat.le_antisymm hle hle')

theorem FirstMarked.split?_eq_some {front rest : List Token} {first : Token}
    (h : FirstMarked marker true children front (first::rest)) : split? marker children =
      some (front.rdropWhile Token.isBreak,Token.ofText (afterMarker marker first.content)::rest) := by
  have hne : split? marker children ≠ none := fun hnone =>
    split?_eq_none_iff.mp hnone front _ h.eq_append h.marked
  obtain ⟨⟨kept,caption⟩,hsplit⟩ := Option.ne_none_iff_exists'.mp hne
  obtain ⟨front',first',rest',h',rfl,rfl⟩ := exists_firstMarked hsplit
  obtain ⟨rfl,hline⟩ := h.unique h'
  obtain ⟨rfl,rfl⟩ := List.cons_eq_cons.mp hline
  exact hsplit

end Split
end Attribution
end Longform
