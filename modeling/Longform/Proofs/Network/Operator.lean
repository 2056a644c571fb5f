import Longform.Proofs.Network.Chain

/-! The text between two references. Arrows in full are read as what they are, and so are arrows that
want an end or have a head too many; a label with a parenthesis in front of a name is cut there. -/
namespace Longform
namespace Network

/-- A text that is read as an arrow, whatever its end. -/
def Arrow.IsOperator (x : Arrow) (t : Text) : Prop :=
  (∀ l ∈ x.label, IsLabel l) ∧ ∃ stop, isArrowEnd stop = true ∧ t = x.textWith stop

/-- The arrow that a text is in full. -/
def Arrow.inFull? (t : Text) : Option Arrow := (Arrow.read? t).filter fun x => t = x.text

theorem Arrow.inFull?_eq_some_iff {t : Text} {x : Arrow} :
    inFull? t = some x ↔ (∀ l ∈ x.label, IsLabel l) ∧ t = x.text := by
  simp only [inFull?,Option.filter_eq_some_iff,decide_eq_true_eq]
  constructor
  · rintro ⟨hread,htext⟩
    exact ⟨(read?_eq_some_iff.mp hread).1,htext⟩
  · rintro ⟨hlabel,rfl⟩
    exact ⟨read?_text hlabel,rfl⟩

/-- Whether the parentheses of a text stand in brackets; `inside` tells whether one is open. -/
def isEnclosed (inside : Bool) : Text → Bool
  | [] => true
  | c::r =>
    if c = '(' || c = ')' then inside && r.contains ']' && isEnclosed inside r
    else if c = '[' then isEnclosed true r
    else if c = ']' then isEnclosed false r
    else isEnclosed inside r

/-- A bracket is open in front of every parenthesis. -/
theorem exists_bracket {inside : Bool} {u w : Text} (h : isEnclosed inside (u ++ '(' :: w) = true) :
    (inside = true ∧ ']' ∉ u) ∨ ∃ u₁ u₂, u = u₁ ++ '[' :: u₂ ∧ ']' ∉ u₂ := by
  induction u generalizing inside with
  | nil =>
    have hinside : inside = true := by
      simp only [List.nil_append,isEnclosed,Bool.and_eq_true,decide_true,Bool.true_or,if_true] at h
      exact h.1.1
    exact .inl ⟨hinside,by simp⟩
  | cons c u ih =>
    have hfurther : (∃ u₁ u₂, u = u₁ ++ '[' :: u₂ ∧ ']' ∉ u₂) →
        ∃ u₁ u₂, c::u = u₁ ++ '[' :: u₂ ∧ ']' ∉ u₂ := by
      rintro ⟨u₁,u₂,rfl,hu⟩
      exact ⟨c::u₁,u₂,rfl,hu⟩
    by_cases hopen : c = '['
    · subst hopen
      have hrest : isEnclosed true (u ++ '(' :: w) = true := by simpa [isEnclosed] using h
      rcases ih hrest with ⟨-,hu⟩ | hu
      · exact .inr ⟨[],u,rfl,hu⟩
      · exact .inr (hfurther hu)
    · by_cases hclose : c = ']'
      · subst hclose
        have hrest : isEnclosed false (u ++ '(' :: w) = true := by simpa [isEnclosed] using h
        rcases ih hrest with ⟨hfalse,-⟩ | hu
        · cases hfalse
        · exact .inr (hfurther hu)
      · have hrest : isEnclosed inside (u ++ '(' :: w) = true := by
          rw [List.cons_append,isEnclosed,if_neg hopen,if_neg hclose] at h
          split at h
          · simp only [Bool.and_eq_true] at h
            exact h.2
          · exact h
        apply (ih hrest).imp _ hfurther
        rintro ⟨hinside,hu⟩
        simp [hinside,hu,Ne.symm hclose]

/-- A text that is cut inside brackets is no arrow. -/
theorem read?_eq_none_of_isEnclosed {u w : Text} (h : isEnclosed false (u ++ '(' :: w) = true) :
    Arrow.read? (Text.trim u) = none := by
  rcases exists_bracket h with ⟨hfalse,-⟩ | ⟨u₁,u₂,rfl,hu⟩
  · cases hfalse
  · rw [Text.trim_append_cons (by decide)]
    apply Arrow.read?_eq_none_of_open
    obtain ⟨b,hb,-⟩ := Text.exists_dropEndWhile_append Text.isBlank u₂
    intro hm
    exact hu (hb ▸ List.mem_append_left b hm)

/-- The line of two names with a text between them. -/
def lineOf (a s b : Text) : Text := (Reference.mk a none).text ++ (s ++ (Reference.mk b none).text)

section
variable {a b s : Text} (ha : IsNode ⟨a,none⟩)
include ha

theorem references_lineOf (hb : IsNode ⟨b,none⟩) (hs : isUnopened s = true) :
    references (lineOf a s b) = [([],⟨a,none⟩),(s,⟨b,none⟩)] := by
  have hlast := referencesBehind_text hb.written s []
  rw [List.append_nil,referencesBehind_nil] at hlast
  show referencesBehind [] (lineOf a s b) = _
  rw [lineOf,referencesBehind_text ha.written,referencesBehind_append hs,List.nil_append,hlast]

theorem edges_lineOf (hb : IsNode ⟨b,none⟩) (hs : isUnopened s = true) : edges [lineOf a s b] =
    ((Arrow.read? (Text.trim s)).map fun x => x.edge ⟨a,none⟩ ⟨b,none⟩).toList := by
  simp [edges,references_lineOf ha hb hs,edgesBetween]

/-- A line is read on from the first parenthesis with a name behind it, when a bracket is open there. -/
theorem edges_lineOf_cut {u w : Text} (hs : isEnclosed false (u ++ '(' :: w) = true)
    (hu : isUnopened u = true) (hw : Reference.opens ('(' :: w) = true) :
    edges [lineOf a (u ++ '(' :: w) b] = edges ['(' :: w ++ (Reference.mk b none).text] := by
  have hfirst : ∀ c ∈ (w ++ (Reference.mk b none).text).head?, c ≠ '|' ∧ c ≠ ')' := by
    cases w with
    | nil => simp [Reference.text]
    | cons d w => simpa [Reference.opens,and_comm] using hw
  obtain ⟨x,rest,hread⟩ := Reference.exists_read? hfirst (by simp [Reference.text])
  obtain ⟨hx,htext⟩ := Reference.read?_eq_some_iff.mp hread
  have hline : lineOf a (u ++ '(' :: w) b = (Reference.mk a none).text ++ (u ++ (x.text ++ rest)) := by
    rw [lineOf,← htext]
    simp
  have hall : references (lineOf a (u ++ '(' :: w) b) =
      ([],⟨a,none⟩)::(u,x)::referencesBehind [] rest := by
    rw [hline]
    show referencesBehind [] _ = _
    rw [referencesBehind_text ha.written,referencesBehind_append hu,List.nil_append,
      referencesBehind_text hx]
  have hrest : references ('(' :: w ++ (Reference.mk b none).text) = ([],x)::referencesBehind [] rest := by
    rw [List.cons_append,htext]
    exact referencesBehind_text hx [] rest
  have hnone := read?_eq_none_of_isEnclosed hs
  simp only [edges,List.flatMap_singleton,hall,hrest,edgesBetween,hnone,Option.map_none,
    Option.toList_none,List.nil_append]
  -- what stands in front of the first reference makes no edge
  cases referencesBehind [] rest <;> simp [edgesBetween]

/-- What an operator between two names comes to. A text without references makes one edge when it is
an operator with any end and none otherwise, so what an arrow in full should make is made of it unless
it is an operator with another end. A text with references in brackets makes the edges of its rest. -/
theorem edges_between (hb : IsNode ⟨b,none⟩) (s : Text) :
    (isUnopened s = true →
      (∀ e, edges [lineOf a s b] = [e] ↔
        ∃ x : Arrow, x.IsOperator (Text.trim s) ∧ e = x.edge ⟨a,none⟩ ⟨b,none⟩) ∧
      (edges [lineOf a s b] = [] ↔ ∀ x : Arrow, ¬x.IsOperator (Text.trim s)) ∧
      (edges [lineOf a s b] =
          ((Arrow.inFull? (Text.trim s)).map fun x => x.edge ⟨a,none⟩ ⟨b,none⟩).toList ↔
        ∀ x : Arrow, x.IsOperator (Text.trim s) → Text.trim s = x.text)) ∧
    (isUnopened s = false → ∃ u w, s = u ++ '(' :: w ∧ isUnopened u = true ∧
      Reference.opens ('(' :: w) = true ∧
      (isEnclosed false s = true →
        edges [lineOf a s b] = edges ['(' :: w ++ (Reference.mk b none).text])) := by
  constructor
  · intro hs
    have hoperator : ∀ x : Arrow, x.IsOperator (Text.trim s) ↔ Arrow.read? (Text.trim s) = some x :=
      fun x => Arrow.read?_eq_some_iff.symm
    simp only [edges_lineOf ha hb hs,hoperator,Arrow.inFull?]
    cases hread : Arrow.read? (Text.trim s) with
    | none => simp
    | some x =>
      by_cases htext : Text.trim s = x.text
      · simp [Option.filter,← htext,eq_comm]
      · simp [Option.filter,htext,eq_comm]
  · intro hs
    obtain ⟨u,w,rfl,hu,hw⟩ := exists_opening hs
    exact ⟨u,w,rfl,hu,hw,fun henclosed => edges_lineOf_cut ha henclosed hu hw⟩

end

/-- Without its head, the operator still makes an edge; the parentheses in its label hold no name. -/
theorem edges_between_headless :
    IsNode ⟨"A".toList,none⟩ ∧ IsNode ⟨"B".toList,none⟩ ∧ isUnopened " -[f()]- ".toList = true ∧
      edges [lineOf "A".toList " -[f()]- ".toList "B".toList] =
        [⟨"A".toList,"B".toList,some "f()".toList,.forward⟩] := by
  have ha : IsNode ⟨"A".toList,none⟩ := isNode_of_isName (by decide) (by decide)
  have hb : IsNode ⟨"B".toList,none⟩ := isNode_of_isName (by decide) (by decide)
  refine ⟨ha,hb,by decide,(((edges_between ha hb " -[f()]- ".toList).1 (by decide)).1 _).mpr ?_⟩
  exact ⟨⟨false,some "f()".toList⟩,⟨by simp [IsLabel],['-'],by decide,by decide⟩,by decide⟩

/-- A dash alone makes an edge though it is no arrow in full, and an arrow in full makes none when a name
stands in parentheses in its label. -/
theorem edges_between_false :
    edges ["(A) - (B)".toList] = [⟨"A".toList,"B".toList,none,.forward⟩] ∧
      Arrow.inFull? ['-'] = none ∧
      edges ["(A) -[f(x)]-> (B)".toList] = [] ∧
      Arrow.inFull? "-[f(x)]->".toList = some ⟨false,some "f(x)".toList⟩ := by
  decide

end Network
end Longform
