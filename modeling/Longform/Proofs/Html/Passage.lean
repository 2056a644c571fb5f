import Longform.Proofs.Html.SoundReader

/-! The strings of a tree. What a tree shows is what its strings show, and its markup is read as a tree
that shows the same, up to blanks. -/
namespace Longform.Html

/-- A string of a tree, with the names of the elements around it, the innermost first. -/
structure Passage where
  around : List Text
  kind : TextKind
  content : Text

mutual
/-- The strings of a node in order. -/
def Node.passages (around : List Text) : Node → List Passage
  | .text kind t => [⟨around,kind,t⟩]
  | .element name _ children => passagesAll (name::around) children
def Node.passagesAll (around : List Text) : List Node → List Passage
  | [] => []
  | n::ns => passages around n ++ passagesAll around ns
end

/-- What a tree consists of: the characters of shown text, other strings, and tags. -/
inductive Part
  | char (c : Char)
  | string (kind : TextKind) (t : Text)
  | opens (name : Text) (attrs : Dictionary Text)
  | closes (name : Text)

mutual
/-- The parts of a node in order. -/
def Node.parts : Node → List Part
  | .text kind t => if kind = .shown then t.map .char else [.string kind t]
  | .element name attrs children => .opens name attrs::partsAll children ++ [.closes name]
def Node.partsAll : List Node → List Part
  | [] => []
  | n::ns => parts n ++ partsAll ns
end

/-- The string that a part is. -/
def Part.string? : Part → Option (TextKind × Text)
  | .string kind t => some (kind,t)
  | _ => none

/-- The text that a passage shows. -/
def Passage.shown (p : Passage) : Text := if p.kind = .shown ∨ p.kind = .rawData then p.content else []

/-- The string that a passage is, if it is no shown text. -/
def Passage.marked (p : Passage) : List (TextKind × Text) :=
  if p.kind = .shown then [] else [(p.kind,p.content)]

section Lists

variable {around : List Text} {ns ms : List Node}

theorem Node.passagesAll_append : Node.passagesAll around (ns ++ ms) =
    Node.passagesAll around ns ++ Node.passagesAll around ms := by
  induction ns with
  | nil => rfl
  | cons n ns ih => rw [List.cons_append,passagesAll,ih,passagesAll,List.append_assoc]

theorem Node.partsAll_append : Node.partsAll (ns ++ ms) = Node.partsAll ns ++ Node.partsAll ms := by
  induction ns with
  | nil => rfl
  | cons n ns ih => rw [List.cons_append,partsAll,ih,partsAll,List.append_assoc]

theorem Node.shownTexts_append : Node.shownTexts (ns ++ ms) = Node.shownTexts ns ++ Node.shownTexts ms := by
  induction ns with
  | nil => rfl
  | cons n ns ih => rw [List.cons_append,shownTexts,ih,shownTexts,List.append_assoc]

end Lists

mutual
theorem shownText_eq_flatMap (around : List Text) (n : Node) :
    n.shownText = (n.passages around).flatMap Passage.shown := by
  cases n with
  | text kind t => exact (List.append_nil _).symm
  | element name attrs children => exact shownTexts_eq_flatMap (name::around) children

/-- A tree shows what its strings show. -/
theorem shownTexts_eq_flatMap (around : List Text) (ns : List Node) :
    Node.shownTexts ns = (Node.passagesAll around ns).flatMap Passage.shown := by
  cases ns with
  | nil => rfl
  | cons n ns =>
    rw [Node.shownTexts,Node.passagesAll,List.flatMap_append,shownText_eq_flatMap around n,
      shownTexts_eq_flatMap around ns]
end

mutual
theorem strings_parts (around : List Text) (n : Node) :
    n.parts.filterMap Part.string? = (n.passages around).flatMap Passage.marked := by
  cases n with
  | text kind t =>
    unfold Node.parts Node.passages Passage.marked
    by_cases hkind : kind = .shown
    · simp [hkind,Part.string?]
    · simp [hkind,Part.string?]
  | element name attrs children =>
    have hclose : [Part.closes name].filterMap Part.string? = [] := rfl
    rw [Node.parts,Node.passages,← strings_partsAll (name::around) children,List.cons_append,
      List.filterMap_cons_none rfl,List.filterMap_append,hclose,List.append_nil]

theorem strings_partsAll (around : List Text) (ns : List Node) :
    (Node.partsAll ns).filterMap Part.string? =
      (Node.passagesAll around ns).flatMap Passage.marked := by
  cases ns with
  | nil => rfl
  | cons n ns =>
    rw [Node.partsAll,Node.passagesAll,List.filterMap_append,List.flatMap_append,
      strings_parts around n,strings_partsAll around ns]
end

/-! Reading the markup of a tree. -/

/-- A string is kept apart from what is shown just where the elements around it ask for that. -/
def Placed (p : Passage) : Prop :=
  p.kind.isPlain = true → (p.kind = .side ↔ p.around.any Builder.isSide = true)

mutual
theorem placed_of_sound {around : List Text} {n : Node} (h : Sound around n) :
    ∀ p ∈ n.passages around, Placed p := by
  cases n with
  | text kind t => exact List.forall_mem_singleton.mpr h.side
  | element name attrs children => exact placed_of_soundAll h.2.2.2.2

theorem placed_of_soundAll {around : List Text} {ns : List Node} (h : SoundAll around ns) :
    ∀ p ∈ Node.passagesAll around ns, Placed p := by
  cases ns with
  | nil => exact List.forall_mem_nil _
  | cons n ns =>
    exact List.forall_mem_append.mpr ⟨placed_of_sound h.1,placed_of_soundAll h.2⟩
end

/-- A text without its blanks. -/
def dense (t : Text) : Text := t.filter fun c => !Text.isBlank c

theorem dense_append (s t : Text) : dense (s ++ t) = dense s ++ dense t := List.filter_append s t

theorem isBlank_of_isPlainBlank {c : Char} (h : Builder.isPlainBlank c = true) :
    Text.isBlank c = true := by
  unfold Builder.isPlainBlank at h
  simp only [Bool.or_eq_true,decide_eq_true_eq] at h
  rcases h with (((rfl | rfl) | rfl) | rfl) | rfl <;> rfl

theorem dense_squeeze (t : Text) : dense (Builder.squeeze t) = dense t := by
  unfold Builder.squeeze
  split
  · rename_i hall
    have hnone : dense t = [] := by
      refine List.filter_eq_nil_iff.mpr fun c hc => ?_
      simp [isBlank_of_isPlainBlank (List.all_eq_true.mp hall c hc)]
    rw [hnone]
    split <;> rfl
  · rfl

section Reread

variable {around : List Text} {pending : Option Text} {t : Text} {ns : List Node}

/-- What is shown of a text inside elements of some names. -/
def overt (around : List Text) (t : Text) : Text := if around.any Builder.isSide then [] else t

theorem dense_finished {kind : TextKind} :
    dense (Node.shownText (finished around kind t)) =
      dense (if kind = .shown then overt around t else Node.shownText (.text kind t)) := by
  have hsqueeze : dense (if around.any Builder.keepsBlanks then t else Builder.squeeze t) = dense t := by
    split
    · rfl
    · exact dense_squeeze t
  by_cases hkind : kind = .shown
  · subst hkind
    cases hside : around.any Builder.isSide with
    | true => simp [finished,Node.shownText,overt,hside]
    | false => simpa [finished,Node.shownText,overt,hside] using hsqueeze
  · rw [if_neg hkind]
    simp only [finished,Node.shownText,hkind,decide_false,Bool.false_and,Bool.false_eq_true,if_false]
    split
    · exact hsqueeze
    · rfl

theorem dense_flushed : dense (Node.shownTexts (flushed around pending)) =
    dense (overt around (pending.getD [])) := by
  cases pending with
  | none =>
    unfold overt
    split <;> rfl
  | some t =>
    rw [flushed,Node.shownTexts,Node.shownTexts,List.append_nil,dense_finished]
    rfl

theorem dense_overt_held : dense (overt around ((held t pending).getD [])) =
    dense (overt around (pending.getD [])) ++ dense (overt around t) := by
  have hheld : (held t pending).getD [] = pending.getD [] ++ t := by
    unfold held
    split
    · rename_i hempty
      rw [List.isEmpty_iff.mp hempty,List.append_nil]
    · rfl
  rw [hheld]
  unfold overt
  split
  · rfl
  · exact dense_append _ _

theorem legibleAll_children {name : Text} {attrs : Dictionary Text} {children : List Node}
    (h : Legible (.element name attrs children)) : LegibleAll children := by
  obtain ⟨-,-,-,-,hchildren⟩ := h
  split at hchildren
  · rcases hchildren with rfl | ⟨t,rfl,-⟩
    · trivial
    · exact ⟨trivial,trivial⟩
  · exact hchildren

/-- What is shown of nodes behind a node with marks of its own. -/
theorem dense_rereadAll_marked {n : Node} (h : n.plain? = none) :
    dense (Node.shownTexts (Node.rereadAll around pending (n::ns))) =
      dense (overt around (pending.getD [])) ++ (dense (Node.shownText (n.reread around)) ++
        dense (Node.shownTexts (Node.rereadAll around none ns))) := by
  simp only [Node.rereadAll,h,Node.shownTexts_append,dense_append,dense_flushed,Node.shownTexts]

theorem dense_rereadAll_plain {n : Node} (h : n.plain? = some t) :
    dense (Node.shownTexts (Node.rereadAll around pending (n::ns))) =
      dense (Node.shownTexts (Node.rereadAll around (held t pending) ns)) := by
  simp only [Node.rereadAll,h]

/-- A text that is written as itself is read behind the text before it. -/
theorem dense_overt_placed {kind : TextKind} (hkind : kind.isPlain = true)
    (h : Placed ⟨around,kind,t⟩) : dense (overt around t) = dense (Node.shownText (.text kind t)) := by
  have hside : kind = .side ↔ around.any Builder.isSide = true := h hkind
  unfold overt
  cases kind with
  | shown =>
    rw [if_neg (fun hany => TextKind.noConfusion (hside.mpr hany))]
    rfl
  | side =>
    rw [if_pos (hside.mp rfl)]
    rfl
  | _ => cases hkind

theorem dense_overt_none : dense (overt around ((none : Option Text).getD [])) = [] := by
  unfold overt
  split <;> rfl

/-- What is shown of a text that is read from its markup, and of what is read behind it. -/
theorem dense_rereadAll_text {kind : TextKind} (h : Placed ⟨around,kind,t⟩) {d : Text}
    (hrest : ∀ pending', dense (Node.shownTexts (Node.rereadAll around pending' ns)) =
      dense (overt around (pending'.getD [])) ++ d) :
    dense (Node.shownTexts (Node.rereadAll around pending (Node.printed (.text kind t) ++ ns))) =
      dense (overt around (pending.getD [])) ++ (dense (Node.shownText (.text kind t)) ++ d) := by
  have hplain : ∀ kind' : TextKind, kind'.isPlain = true → Placed ⟨around,kind',t⟩ →
      dense (Node.shownTexts (Node.rereadAll around pending (.text kind' t::ns))) =
        dense (overt around (pending.getD [])) ++ (dense (Node.shownText (.text kind' t)) ++ d) := by
    intro kind' hkind hplaced
    have hsome : (Node.text kind' t).plain? = some t := if_pos hkind
    rw [dense_rereadAll_plain hsome,hrest,dense_overt_held,dense_overt_placed hkind hplaced,
      List.append_assoc]
  have hmarked : ∀ (kind' : TextKind) (t' : Text), kind'.isPlain = false →
      dense (Node.shownTexts (Node.rereadAll around pending (.text kind' t'::ns))) =
        dense (overt around (pending.getD [])) ++ (dense (Node.shownText (.text kind' t')) ++ d) := by
    intro kind' t' hkind
    have hnone : (Node.text kind' t').plain? = none := if_neg (by simp [hkind])
    have hne : kind' ≠ .shown := fun he => by simp [he,TextKind.isPlain] at hkind
    rw [dense_rereadAll_marked hnone,hrest,dense_overt_none,Node.reread,dense_finished,if_neg hne]
    rfl
  cases kind with
  | shown => exact hplain .shown rfl h
  | side => exact hplain .side rfl h
  | comment => exact hmarked .comment t rfl
  | rawData => exact hmarked .rawData t rfl
  | instruction => exact hmarked .instruction t rfl
  | declaration => exact hmarked .instruction (t ++ ['?']) rfl
  | doctype =>
    have hbreak : dense (overt around ['\n']) = [] := by
      unfold overt
      split <;> rfl
    have hheld : dense (overt around ((held ['\n'] none).getD [])) = [] := hbreak
    have hnone : (Node.text .doctype t).plain? = none := rfl
    have hsome : (Node.text .shown ['\n']).plain? = some ['\n'] := rfl
    have hdoctype : dense (Node.shownText ((Node.text .doctype t).reread around)) = [] := by
      rw [Node.reread,dense_finished]
      rfl
    show dense (Node.shownTexts (Node.rereadAll around pending
      (.text .doctype t::.text .shown ['\n']::ns))) = _
    rw [dense_rereadAll_marked hnone,dense_rereadAll_plain hsome,hrest,hheld,hdoctype]
    rfl

end Reread

mutual
theorem dense_reread_element {around : List Text} {name : Text} {attrs : Dictionary Text}
    {children : List Node} (hplaced : ∀ p ∈ Node.passagesAll (name::around) children, Placed p)
    (h : Legible (.element name attrs children)) (attrs' : Dictionary Text) :
    dense (Node.shownText ((Node.element name attrs' (Node.printedAll children)).reread around)) =
      dense (Node.shownTexts children) := by
  rw [Node.reread,Node.shownText]
  split
  · rename_i hvoid
    rw [h.2.2.2.1 hvoid]
  · rw [dense_rereadAll hplaced (legibleAll_children h) none,dense_overt_none,List.nil_append]

/-- Nodes that are read from their markup show what they showed, up to blanks. -/
theorem dense_rereadAll {around : List Text} {ns : List Node}
    (hplaced : ∀ p ∈ Node.passagesAll around ns, Placed p) (h : LegibleAll ns)
    (pending : Option Text) :
    dense (Node.shownTexts (Node.rereadAll around pending (Node.printedAll ns))) =
      dense (overt around (pending.getD [])) ++ dense (Node.shownTexts ns) := by
  cases ns with
  | nil => exact dense_flushed.trans (List.append_nil _).symm
  | cons n ns =>
    rw [Node.passagesAll,List.forall_mem_append] at hplaced
    have hrest := fun pending' => dense_rereadAll hplaced.2 h.2 pending'
    rw [Node.printedAll,Node.shownTexts,dense_append]
    cases n with
    | text kind t => exact dense_rereadAll_text (List.forall_mem_singleton.mp hplaced.1) hrest
    | element name attrs children =>
      rw [Node.printed,List.singleton_append,dense_rereadAll_marked rfl,hrest,dense_overt_none,
        List.nil_append,dense_reread_element hplaced.1 h.1,Node.shownText]
end

/-- The markup of nodes is read as nodes that show the same, up to blanks. -/
theorem parse_markup_dense {ns : List Node} (hplaced : ∀ p ∈ Node.passagesAll [] ns, Placed p)
    (h : LegibleAll ns) :
    ∃ ms, parse (markup ns) = .ok ms ∧ dense (shownText ms) = dense (shownText ns) :=
  ⟨_,parse_of_reads (reads_nodes h),dense_rereadAll hplaced h none⟩

end Longform.Html
