import Longform.Proofs.Html.Passage
import Longform.Proofs.Html.SoundBuilder

/-! Markup that is read, written and read once more. What was read of markup that can be read is written
as such markup again, and its elements are the elements that were written. -/
namespace Longform.Html

open Builder

mutual
theorem legible_printed {n : Node} (h : Legible n) : LegibleAll n.printed := by
  cases n with
  | text kind t =>
    cases kind with
    | declaration =>
      have ht : '>' ∉ t := h
      have hcontent : '>' ∉ t ++ ['?'] := by simp [ht]
      exact ⟨hcontent,trivial⟩
    | doctype => exact ⟨h,trivial,trivial⟩
    | _ => exact ⟨h,trivial⟩
  | element name attrs children =>
    obtain ⟨hname,hclose,hattrs,hvoid,hchildren⟩ := h
    refine ⟨⟨hname,hclose,?_,fun hv => ?_,?_⟩,trivial⟩
    · exact fun a ha => hattrs a ((sortedAttrs_perm attrs).mem_iff.mp ha)
    · rw [hvoid hv]
      rfl
    · split at hchildren
      · rename_i hliteral
        rw [if_pos hliteral]
        rcases hchildren with rfl | ⟨t,rfl,ht⟩
        · exact .inl rfl
        · exact .inr ⟨t,rfl,ht⟩
      · rename_i hliteral
        rw [if_neg hliteral]
        exact legibleAll_printedAll hchildren

theorem legibleAll_printedAll {ns : List Node} (h : LegibleAll ns) :
    LegibleAll (Node.printedAll ns) := by
  cases ns with
  | nil => trivial
  | cons n ns =>
    rw [Node.printedAll,legibleAll_append_iff]
    exact ⟨legible_printed h.1,legibleAll_printedAll h.2⟩
end

theorem isContent_squeeze_if {around : List Text} {kind : TextKind} {t : Text} (h : IsContent kind t) :
    IsContent kind (if around.any keepsBlanks then t else squeeze t) := by
  split
  · exact h
  · exact h.squeeze

theorem legible_finished {around : List Text} {kind : TextKind} {t : Text} (h : IsContent kind t) :
    Legible (finished around kind t) := by
  unfold finished
  split
  · trivial
  · exact isContent_squeeze_if h

theorem legibleAll_flushed (around : List Text) (p : Option Text) : LegibleAll (flushed around p) := by
  cases p with
  | none => trivial
  | some t => exact ⟨@legible_finished around .shown t trivial,trivial⟩

theorem cutLiteral_squeeze {name t : Text} (hname : isLiteralName name = true)
    (h : cutLiteral name t = none) : cutLiteral name (squeeze t) = none := by
  have hblank : cutLiteral name ['\n'] = none ∧ cutLiteral name [' '] = none := by
    rcases eq_of_isLiteralName hname with rfl | rfl <;> decide
  unfold squeeze
  split
  · split
    · exact hblank.1
    · exact hblank.2
  · exact h

theorem isAttributeName_kept {name : Text} {attrs : Dictionary Text}
    (h : ∀ a ∈ attrs, IsAttributeName a.1) :
    ∀ a ∈ kept name (readAttributes attrs), IsAttributeName a.1 := by
  intro a ha
  have hkey : a.1 ∈ (readAttributes attrs).keys := by
    rw [← keys_kept name]
    exact List.mem_map_of_mem ha
  have hmem := Dictionary.mem_keys_ofEntries hkey
  simp only [Dictionary.keys,List.map_map,List.mem_map] at hmem
  obtain ⟨b,hb,hlower⟩ := hmem
  have hb' : IsAttributeName (Text.lower b.1) := (h b hb).lower
  exact hlower ▸ hb'

/-- The text of a script or style. -/
theorem rereadAll_literal {name t : Text} (hname : isLiteralName name = true)
    (h : cutLiteral name t = none) (around : List Text) :
    Node.rereadAll (name::around) none [.text .side t] = [] ∨
      ∃ u, Node.rereadAll (name::around) none [.text .side t] = [.text .side u] ∧
        cutLiteral name u = none := by
  have hside : isSide name = true := by
    rcases eq_of_isLiteralName hname with rfl | rfl <;> decide
  cases t with
  | nil => exact .inl rfl
  | cons c r =>
    have hread : Node.rereadAll (name::around) none [.text .side (c::r)] =
        [finished (name::around) .shown (c::r)] := rfl
    rw [hread,finished,if_pos (by simp [hside])]
    refine .inr ⟨_,rfl,?_⟩
    split
    · exact h
    · exact cutLiteral_squeeze hname h

mutual
theorem legible_reread {around : List Text} {n : Node} (h : Legible n) : Legible (n.reread around) := by
  cases n with
  | text kind t => exact legible_finished h
  | element name attrs children =>
    obtain ⟨hname,hclose,hattrs,hvoid,hchildren⟩ := h
    refine ⟨hname,hclose,isAttributeName_kept hattrs,fun hv => if_pos hv,?_⟩
    split at hchildren
    · rename_i hliteral
      rw [if_pos hliteral,if_neg (by simp [isVoid_of_isLiteralName hliteral])]
      rcases hchildren with rfl | ⟨t,rfl,ht⟩
      · exact .inl rfl
      · exact rereadAll_literal hliteral ht around
    · rename_i hliteral
      rw [if_neg hliteral]
      split
      · trivial
      · exact legibleAll_rereadAll none hchildren

/-- What is read of markup that can be read has such markup too. -/
theorem legibleAll_rereadAll {around : List Text} (p : Option Text) {ns : List Node}
    (h : LegibleAll ns) : LegibleAll (Node.rereadAll around p ns) := by
  cases ns with
  | nil => exact legibleAll_flushed around p
  | cons n ns =>
    rw [Node.rereadAll]
    split
    · exact legibleAll_rereadAll _ h.2
    · rw [legibleAll_append_iff]
      exact ⟨legibleAll_flushed around p,legible_reread h.1,legibleAll_rereadAll none h.2⟩
end

/-! Elements among the nodes. -/

section Filter
variable (name : Text)

theorem filter_flushed (around : List Text) (p : Option Text) :
    (flushed around p).filter (Node.isElement name) = [] := by
  cases p <;> rfl

/-- The elements of a name that are read are those that were written. -/
theorem filter_rereadAll (around : List Text) (p : Option Text) (ns : List Node) :
    (Node.rereadAll around p ns).filter (Node.isElement name) =
      (ns.filter (Node.isElement name)).map (Node.reread around) := by
  induction ns generalizing p with
  | nil => exact filter_flushed name around p
  | cons n ns ih =>
    rw [Node.rereadAll]
    cases n with
    | text kind t =>
      have hno : (Node.text kind t).isElement name = false := rfl
      have hread : ((Node.text kind t).reread around).isElement name = false := rfl
      rw [List.filter_cons_of_neg (by simp [hno])]
      split
      · exact ih _
      · rw [List.filter_append,filter_flushed,List.filter_cons_of_neg (by simp [hread]),ih]
        rfl
    | element tag attrs children =>
      have hread : ((Node.element tag attrs children).reread around).isElement name =
          (Node.element tag attrs children).isElement name := rfl
      simp only [Node.plain?,List.filter_append,filter_flushed,List.nil_append]
      rw [List.filter_cons,List.filter_cons,hread,ih]
      split <;> rfl

end Filter

end Longform.Html
