import Mathlib.Algebra.Order.BigOperators.Group.List
import Mathlib.Algebra.Order.Ring.Nat
import Longform.Footnote.Unit
import Longform.Proofs.Footnote.Linking
import Longform.Proofs.Html.Passage

/-! What linking leaves as it was. With the links written out as references again, a tree is what it was
exactly when all references in it stand in shown text: a comment that holds one becomes shown text
itself. -/
namespace Longform
namespace Footnote
open Html

/-- A string that refers to a known note, outside code, scripts and styles. -/
def cites (known : Text → Bool) (p : Passage) : Bool :=
  !p.around.any isLiteral && (mentions p.content).any known

/-- A reference as it is shown by its link. -/
def shortened (id : Text) : Node := .text .shown ('[' :: id ++ [']'])

/-- Only shown text refers to known notes. -/
def Confined (known : Text → Bool) (ns : List Node) : Prop :=
  ∀ p ∈ Node.passagesAll [] ns, cites known p = true → p.kind = .shown

/-- Nothing refers to known notes that is not shown. -/
def Overt (known : Text → Bool) (ns : List Node) : Prop :=
  ∀ p ∈ Node.passagesAll [] ns, cites known p = true → p.kind = .shown ∨ p.kind = .rawData

instance (known : Text → Bool) (ns : List Node) : Decidable (Confined known ns) :=
  List.decidableBAll _ _

instance (known : Text → Bool) (ns : List Node) : Decidable (Overt known ns) :=
  List.decidableBAll _ _

section Passages

variable (known : Text → Bool) (f : Text → Node)

/-- The strings that become of a string when its references are filled in. -/
def opened (p : Passage) : List Passage :=
  if cites known p then
    Node.passagesAll p.around (Sketch.fillAll f ((pieces known p.content).map Piece.sketch))
  else [p]

theorem cites_eq {around : List Text} (h : around.any isLiteral = false) (kind : TextKind) (t : Text) :
    cites known ⟨around,kind,t⟩ = !((pieces known t).filterMap Piece.id?).isEmpty := by
  rw [cites,h,ids_pieces,Bool.not_false,Bool.true_and]
  cases hany : (mentions t).any known with
  | true =>
    obtain ⟨id,hid,hknown⟩ := List.any_eq_true.mp hany
    have hmem : id ∈ (mentions t).filter known := List.mem_filter.mpr ⟨hid,hknown⟩
    simpa using List.ne_nil_of_mem hmem
  | false =>
    have hnone : (mentions t).filter known = [] :=
      List.filter_eq_nil_iff.mpr fun id hid => List.any_eq_false.mp hany id hid
    rw [hnone]
    rfl

mutual
theorem any_around_of_mem {q : Text → Bool} {around : List Text} (h : around.any q = true) {n : Node} :
    ∀ p ∈ n.passages around, p.around.any q = true := by
  cases n with
  | text kind t => exact List.forall_mem_singleton.mpr h
  | element name attrs children => exact any_around_of_mem_all (by simp [h])

theorem any_around_of_mem_all {q : Text → Bool} {around : List Text} (h : around.any q = true)
    {ns : List Node} : ∀ p ∈ Node.passagesAll around ns, p.around.any q = true := by
  cases ns with
  | nil => exact List.forall_mem_nil _
  | cons n ns =>
    exact List.forall_mem_append.mpr ⟨any_around_of_mem h,any_around_of_mem_all h⟩
end

theorem flatMap_opened_of_literal {ps : List Passage} (h : ∀ p ∈ ps, p.around.any isLiteral = true) :
    ps.flatMap (opened known f) = ps := by
  induction ps with
  | nil => rfl
  | cons p ps ih =>
    rw [List.forall_mem_cons] at h
    have hnone : cites known p = false := by rw [cites,h.1]; rfl
    rw [List.flatMap_cons,ih h.2,opened,hnone]
    rfl

mutual
theorem passages_sketchNode {around : List Text} (h : around.any isLiteral = false) (n : Node) :
    Node.passagesAll around (Sketch.fillAll f (sketchNode known n)) =
      (n.passages around).flatMap (opened known f) := by
  cases n with
  | text kind t =>
    rw [sketchNode,sketchText,Node.passages,List.flatMap_singleton,opened,cites_eq known h]
    cases ((pieces known t).filterMap Piece.id?).isEmpty with
    | true => rfl
    | false => rfl
  | element name attrs children =>
    rw [sketchNode,Node.passages]
    cases hname : isLiteral name with
    | true =>
      have hall : ∀ p ∈ Node.passagesAll (name::around) children, p.around.any isLiteral = true :=
        any_around_of_mem_all (by simp [hname])
      rw [flatMap_opened_of_literal known f hall]
      exact List.append_nil _
    | false =>
      rw [← passages_sketchAll (by simp [hname,h]) children]
      exact List.append_nil _

/-- The strings of a tree with its references filled in. -/
theorem passages_sketchAll {around : List Text} (h : around.any isLiteral = false) (ns : List Node) :
    Node.passagesAll around (Sketch.fillAll f (sketchAll known ns)) =
      (Node.passagesAll around ns).flatMap (opened known f) := by
  cases ns with
  | nil => rfl
  | cons n ns =>
    rw [sketchAll,Sketch.fillAll_append,Node.passagesAll_append,passages_sketchNode h n,
      passages_sketchAll h ns,Node.passagesAll,List.flatMap_append]
end

end Passages

/-! Written out again. -/

section Written

variable {known : Text → Bool} {ns : List Node}

theorem partsAll_map_sketch (ps : List Piece) :
    Node.partsAll (Sketch.fillAll written (ps.map Piece.sketch)) =
      (ps.flatMap Piece.source).map Part.char := by
  induction ps with
  | nil => rfl
  | cons p ps ih =>
    rw [List.map_cons,Sketch.fillAll,Node.partsAll,ih,List.flatMap_cons,List.map_append]
    cases p <;> rfl

mutual
theorem partsAll_sketchNode {around : List Text} {n : Node} (h : ∀ p ∈ n.passages around,
    cites known p = true → p.kind = .shown) (hnot : around.any isLiteral = false) :
    Node.partsAll (Sketch.fillAll written (sketchNode known n)) = n.parts := by
  cases n with
  | text kind t =>
    have hkind := List.forall_mem_singleton.mp h
    rw [cites_eq known hnot] at hkind
    rw [sketchNode,sketchText]
    cases hids : ((pieces known t).filterMap Piece.id?).isEmpty with
    | true => exact List.append_nil _
    | false =>
      rw [hids] at hkind
      obtain rfl : kind = .shown := hkind rfl
      rw [if_neg Bool.false_ne_true,partsAll_map_sketch,source_pieces]
      rfl
  | element name attrs children =>
    rw [sketchNode]
    cases hname : isLiteral name with
    | true => exact List.append_nil _
    | false =>
      have hchildren := partsAll_sketchAll h (by simp [hname,hnot])
      rw [if_neg Bool.false_ne_true,Sketch.fillAll,Sketch.fill,Node.partsAll,Node.parts,hchildren]
      exact List.append_nil _

/-- Where only shown text refers to notes, writing the references out gives back the tree. -/
theorem partsAll_sketchAll {around : List Text} {ns : List Node}
    (h : ∀ p ∈ Node.passagesAll around ns, cites known p = true → p.kind = .shown)
    (hnot : around.any isLiteral = false) :
    Node.partsAll (Sketch.fillAll written (sketchAll known ns)) = Node.partsAll ns := by
  cases ns with
  | nil => rfl
  | cons n ns =>
    rw [Node.passagesAll,List.forall_mem_append] at h
    rw [sketchAll,Sketch.fillAll_append,Node.partsAll_append,partsAll_sketchNode h.1 hnot,
      partsAll_sketchAll h.2 hnot,Node.partsAll]
end

theorem shown_map_sketch (around : List Text) (ps : List Piece) :
    (Node.passagesAll around (Sketch.fillAll written (ps.map Piece.sketch))).flatMap Passage.shown =
      ps.flatMap Piece.source := by
  induction ps with
  | nil => rfl
  | cons p ps ih =>
    rw [List.map_cons,Sketch.fillAll,Node.passagesAll,List.flatMap_append,ih,List.flatMap_cons]
    cases p <;> exact congrArg (· ++ _) (List.append_nil _)

theorem marked_map_sketch (around : List Text) (ps : List Piece) :
    (Node.passagesAll around (Sketch.fillAll written (ps.map Piece.sketch))).flatMap Passage.marked =
      [] := by
  induction ps with
  | nil => rfl
  | cons p ps ih =>
    rw [List.map_cons,Sketch.fillAll,Node.passagesAll,List.flatMap_append,ih]
    cases p <;> rfl

/-- With its references written out, a string that refers to notes is shown. -/
theorem shown_opened (p : Passage) : (opened known written p).flatMap Passage.shown =
    if cites known p then p.content else p.shown := by
  unfold opened
  split
  · rw [shown_map_sketch,source_pieces]
  · exact List.append_nil _

theorem marked_opened (p : Passage) : (opened known written p).flatMap Passage.marked =
    if cites known p then [] else p.marked := by
  unfold opened
  split
  · exact marked_map_sketch _ _
  · exact List.append_nil _

theorem length_eq_of_flatMap_eq {α β : Type} {f g : α → List β} {xs : List α}
    (hle : ∀ x ∈ xs, (f x).length ≤ (g x).length) (h : xs.flatMap f = xs.flatMap g) :
    ∀ x ∈ xs, (f x).length = (g x).length := by
  -- the totals are equal, so no part on the left is shorter than that on the right
  have htotal : (xs.map fun x => (f x).length).sum = (xs.map fun x => (g x).length).sum := by
    rw [← List.length_flatMap,← List.length_flatMap,h]
  intro x hx
  refine Nat.le_antisymm (hle x hx) (Nat.le_of_not_lt fun hlt => ?_)
  exact (List.sum_lt_sum _ _ hle ⟨x,hx,hlt⟩).ne htotal

theorem partsAll_written_iff :
    Node.partsAll (Sketch.fillAll written (sketchAll known ns)) = Node.partsAll ns ↔
      Confined known ns := by
  refine ⟨fun h => ?_,fun h => partsAll_sketchAll h rfl⟩
  have hstrings := congrArg (List.filterMap Part.string?) h
  rw [strings_partsAll [],strings_partsAll [],passages_sketchAll known written rfl,
    List.flatMap_assoc] at hstrings
  simp only [marked_opened] at hstrings
  intro p hp hcites
  have hlength := length_eq_of_flatMap_eq (fun q _ => by split <;> simp) hstrings p hp
  rw [if_pos hcites] at hlength
  by_contra hkind
  simp [Passage.marked,hkind] at hlength

theorem content_ne_nil {p : Passage} (h : cites known p = true) : p.content ≠ [] := by
  intro hnil
  rw [cites,hnil] at h
  exact absurd (Bool.and_eq_true_iff.mp h).2 (by simp [mentions,pieces,piecesFrom,prepend])

theorem shownTexts_written_iff :
    Node.shownTexts (Sketch.fillAll written (sketchAll known ns)) = Node.shownTexts ns ↔
      Overt known ns := by
  rw [shownTexts_eq_flatMap [],shownTexts_eq_flatMap [],passages_sketchAll known written rfl,
    List.flatMap_assoc]
  simp only [shown_opened]
  constructor
  · intro h p hp hcites
    have hle : ∀ q ∈ Node.passagesAll [] ns, q.shown.length ≤
        (if cites known q then q.content else q.shown).length := by
      intro q _
      split
      · unfold Passage.shown
        split <;> simp
      · exact Nat.le_refl _
    have hlength := length_eq_of_flatMap_eq hle h.symm p hp
    rw [if_pos hcites] at hlength
    by_contra hkind
    rw [Passage.shown,if_neg hkind] at hlength
    exact content_ne_nil hcites (List.length_eq_zero_iff.mp hlength.symm)
  · intro h
    refine List.flatMap_congr fun p hp => ?_
    split
    · rename_i hcites
      rw [Passage.shown,if_pos (h p hp hcites)]
    · rfl

end Written

/-! With links. -/

section Linked

variable {known : Text → Bool} {unit : Int}

mutual
theorem shownText_fill {f g : Text → Node} (h : ∀ id, (f id).shownText = (g id).shownText) (s : Sketch) :
    (s.fill f).shownText = (s.fill g).shownText := by
  cases s with
  | node n => rfl
  | slot id => exact h id
  | element name attrs children => exact shownTexts_fillAll h children

/-- What is shown depends on what the fillings show. -/
theorem shownTexts_fillAll {f g : Text → Node} (h : ∀ id, (f id).shownText = (g id).shownText)
    (ss : List Sketch) :
    Node.shownTexts (Sketch.fillAll f ss) = Node.shownTexts (Sketch.fillAll g ss) := by
  cases ss with
  | nil => rfl
  | cons s ss =>
    rw [Sketch.fillAll,Node.shownTexts,shownText_fill h s,shownTexts_fillAll h ss,Sketch.fillAll,
      Node.shownTexts]
end

theorem shownText_link (unit : Int) (id : Text) : (link unit id).shownText = (shortened id).shownText := by
  simp [link,shortened,Node.shownText,Node.shownTexts]

theorem legible_link (unit : Int) (id : Text) : Legible (link unit id) := by
  have hsup : IsElementName "sup".toList := ⟨⟨'s',"up".toList,by decide,by decide⟩,by decide,by decide⟩
  have ha : IsElementName "a".toList := ⟨⟨'a',[],by decide,by decide⟩,by decide,by decide⟩
  have hplain : ∀ name ∈ ["sup".toList,"a".toList],
      Closable name ∧ isVoid name = false ∧ isLiteralName name = false := by decide
  have hnames : ∀ name ∈ ["class".toList,"href".toList,"id".toList], IsAttributeName name := by decide
  simp only [List.forall_mem_cons] at hplain hnames
  obtain ⟨⟨hsupClose,hsupVoid,hsupLiteral⟩,⟨haClose,haVoid,haLiteral⟩,-⟩ := hplain
  obtain ⟨hclass,hhref,hid,-⟩ := hnames
  refine ⟨hsup,hsupClose,List.forall_mem_singleton.mpr hclass,fun hv =>
    absurd (hsupVoid.symm.trans hv) Bool.false_ne_true,?_⟩
  rw [if_neg (Bool.eq_false_iff.mp hsupLiteral)]
  refine ⟨⟨ha,haClose,?_,fun hv =>
    absurd (haVoid.symm.trans hv) Bool.false_ne_true,?_⟩,trivial⟩
  · exact List.forall_mem_cons.mpr ⟨hhref,List.forall_mem_singleton.mpr hid⟩
  · rw [if_neg (Bool.eq_false_iff.mp haLiteral)]
    exact ⟨trivial,trivial⟩

theorem isLiteral_of_isLiteralName {name : Text} (h : isLiteralName name = true) :
    isLiteral name = true := by
  rcases eq_of_isLiteralName h with rfl | rfl <;> decide

theorem legible_map_sketch (unit : Int) (ps : List Piece) :
    LegibleAll (Sketch.fillAll (link unit) (ps.map Piece.sketch)) := by
  induction ps with
  | nil => trivial
  | cons p ps ih =>
    cases p with
    | plain t => exact ⟨trivial,ih⟩
    | reference id => exact ⟨legible_link unit id,ih⟩

mutual
theorem legible_sketchNode {n : Node} (h : Legible n) :
    LegibleAll (Sketch.fillAll (link unit) (sketchNode known n)) := by
  cases n with
  | text kind t =>
    rw [sketchNode,sketchText]
    cases ((pieces known t).filterMap Piece.id?).isEmpty with
    | true => exact ⟨h,trivial⟩
    | false => exact legible_map_sketch unit _
  | element name attrs children =>
    rw [sketchNode]
    cases hname : isLiteral name with
    | true => exact ⟨h,trivial⟩
    | false =>
      have hchildren := legible_sketchAll (legibleAll_children h)
      have hliteral : ¬isLiteralName name = true := fun hl => by
        simp [isLiteral_of_isLiteralName hl] at hname
      obtain ⟨helement,hclose,hattrs,hvoid,-⟩ := h
      refine ⟨⟨helement,hclose,hattrs,fun hv => ?_,?_⟩,trivial⟩
      · rw [hvoid hv]
        rfl
      · rw [if_neg hliteral]
        exact hchildren

/-- The markup of a tree with its references linked can be read if that of the tree can. -/
theorem legible_sketchAll {ns : List Node} (h : LegibleAll ns) :
    LegibleAll (Sketch.fillAll (link unit) (sketchAll known ns)) := by
  cases ns with
  | nil => trivial
  | cons n ns =>
    rw [sketchAll,Sketch.fillAll_append]
    exact legibleAll_append_iff.mpr ⟨legible_sketchNode h.1,legible_sketchAll h.2⟩
end

theorem isSide_link : Builder.isSide "sup".toList = false ∧ Builder.isSide "a".toList = false := by
  decide

theorem placed_map_sketch (unit : Int) {around : List Text} (h : around.any Builder.isSide = false)
    (ps : List Piece) :
    ∀ p ∈ Node.passagesAll around (Sketch.fillAll (link unit) (ps.map Piece.sketch)), Placed p := by
  have hshown : ∀ {around' : List Text} {t : Text}, around'.any Builder.isSide = false →
      Placed ⟨around',.shown,t⟩ := fun hnot _ =>
    ⟨fun hkind => TextKind.noConfusion hkind,fun hany => by simp [hnot] at hany⟩
  induction ps with
  | nil => exact List.forall_mem_nil _
  | cons p ps ih =>
    refine List.forall_mem_append.mpr ⟨?_,ih⟩
    cases p with
    | plain t => exact List.forall_mem_singleton.mpr (hshown h)
    | reference id =>
      refine List.forall_mem_singleton.mpr (hshown ?_)
      rw [List.any_cons,List.any_cons,isSide_link.1,isSide_link.2,h]
      rfl

/-- Links stand where shown text stood. -/
theorem placed_sketchAll {ns : List Node} (hplaced : ∀ p ∈ Node.passagesAll [] ns, Placed p)
    (h : Confined known ns) :
    ∀ p ∈ Node.passagesAll [] (Sketch.fillAll (link unit) (sketchAll known ns)), Placed p := by
  rw [passages_sketchAll known (link unit) rfl]
  intro p hp
  obtain ⟨q,hq,hp⟩ := List.mem_flatMap.mp hp
  unfold opened at hp
  split at hp
  · rename_i hcites
    have hkind := h q hq hcites
    have hside := hplaced q hq (by rw [hkind]; rfl)
    have hnot : q.around.any Builder.isSide = false := by
      cases hany : q.around.any Builder.isSide with
      | false => rfl
      | true => exact TextKind.noConfusion (hkind.symm.trans (hside.mpr hany))
    exact placed_map_sketch unit hnot _ p hp
  · rw [List.mem_singleton.mp hp]
    exact hplaced q hq

end Linked

/-- A fragment with its references linked is a sketch of its tree with the links filled in, one for each
reference. Written out as references again, the links give back the tree exactly when references stand in
shown text only; the visible text is that of the tree, each reference without its mark, exactly when
references stand in visible text only. Read again, the linked fragment shows that text, up to blanks. -/
theorem linked_restores_iff (notes : Dictionary Text) (unit : Int) (fragment : Text) (ns : List Node)
    (hparse : Html.parse fragment = .ok ns) :
    ∃ sketch, linked notes unit fragment = .ok (Html.markup (Sketch.fillAll (link unit) sketch)) ∧
      Sketch.idsAll sketch = cited notes.hasKey ns ∧
      (Node.partsAll (Sketch.fillAll written sketch) = Node.partsAll ns ↔ Confined notes.hasKey ns) ∧
      (Html.shownText (Sketch.fillAll written sketch) = Html.shownText ns ↔ Overt notes.hasKey ns) ∧
      Html.shownText (Sketch.fillAll (link unit) sketch) =
        Html.shownText (Sketch.fillAll shortened sketch) ∧
      (Confined notes.hasKey ns → ClearAll ns →
        ∃ ms, Html.parse (Html.markup (Sketch.fillAll (link unit) sketch)) = .ok ms ∧
          dense (Html.shownText ms) = dense (Html.shownText (Sketch.fillAll shortened sketch))) := by
  refine ⟨sketchAll notes.hasKey ns,?_,(idsAll_sketchAll _ ns).trans (occurrencesAll_eq_cited _ ns),
    partsAll_written_iff,shownTexts_written_iff,shownTexts_fillAll (shownText_link unit) _,?_⟩
  · rw [linked,hparse,fillAll_sketchAll]
    rfl
  · intro hconfined hclear
    have hsound : SoundAll [] ns := soundAll_iff.mpr (sound_of_parse hparse)
    obtain ⟨ms,hms,hdense⟩ := parse_markup_dense
      (placed_sketchAll (placed_of_soundAll hsound) hconfined)
      (legible_sketchAll (legibleAll_of_sound hsound hclear))
    exact ⟨ms,hms,hdense.trans (congrArg dense (shownTexts_fillAll (shownText_link unit) _))⟩

/-- References at the ends of a string, to a note that is not known, and in code. -/
theorem linked_restores_iff_mixed :
    let notes : Dictionary Text := [("1".toList,"one".toList)]
    let fragment := "[^1]<p>a[^1][^2]</p><code>[^1]</code>".toList
    let ns : List Node := [.text .shown "[^1]".toList,
      .element "p".toList [] [.text .shown "a[^1][^2]".toList],
      .element "code".toList [] [.text .shown "[^1]".toList]]
    Html.parse fragment = .ok ns ∧ ∃ sketch, Sketch.idsAll sketch = ["1".toList,"1".toList] ∧
      linked notes 0 fragment = .ok (Html.markup (Sketch.fillAll (link 0) sketch)) ∧
      Node.partsAll (Sketch.fillAll written sketch) = Node.partsAll ns ∧
      Html.shownText (Sketch.fillAll written sketch) = Html.shownText ns := by
  intro notes fragment ns
  have hparse : Html.parse fragment = .ok ns := by rfl
  have hcited : cited notes.hasKey ns = ["1".toList,"1".toList] := by decide
  obtain ⟨sketch,hlinked,hids,hparts,hshown,-⟩ := linked_restores_iff notes 0 fragment ns hparse
  have hconfined : Confined notes.hasKey ns := by decide
  exact ⟨hparse,sketch,hids.trans hcited,hlinked,hparts.mpr hconfined,
    hshown.mpr fun p hp hcites => .inl (hconfined p hp hcites)⟩

/-- A comment that holds a reference is shown once the reference is linked. -/
theorem linked_shows_comment :
    let notes : Dictionary Text := [("1".toList,"n".toList)]
    let ns : List Node := [.text .shown "a".toList,.text .comment " see [^1] ".toList]
    let ms : List Node := [.text .shown "a see ".toList,link 0 "1".toList,.text .shown " ".toList]
    Html.parse "a<!-- see [^1] -->".toList = .ok ns ∧
      linked notes 0 "a<!-- see [^1] -->".toList = .ok
        "a see <sup class=\"footnote-ref\"><a href=\"#fn-def-0-1\" id=\"fn-ref-0-1\">[1]</a></sup> ".toList ∧
      Html.parse
        "a see <sup class=\"footnote-ref\"><a href=\"#fn-def-0-1\" id=\"fn-ref-0-1\">[1]</a></sup> ".toList
        = .ok ms ∧
      Html.shownText ns = "a".toList ∧ Html.shownText ms = "a see [1] ".toList ∧
      ¬Confined notes.hasKey ns ∧ ¬Overt notes.hasKey ns := by
  intro notes ns ms
  have hparse : Html.parse "a<!-- see [^1] -->".toList = .ok ns := by rfl
  have hlinks : linkAll notes.hasKey 0 ns = [.text .shown "a".toList,.text .shown " see ".toList,
      link 0 "1".toList,.text .shown " ".toList] := by rfl
  refine ⟨hparse,?_,by rfl,by decide,by decide,by decide,by decide⟩
  rw [linked,hparse]
  change Except.ok (Html.markup (linkAll notes.hasKey 0 ns)) = _
  rw [hlinks]
  rfl

end Footnote
end Longform
