import Longform.Proofs.Decimal.Whole
import Longform.Proofs.Footnote.Restoring
import Longform.Proofs.Html.Relegible
import Longform.Proofs.Page.Notes
import Longform.Proofs.Page.Part

/-! Numbers of items. On every page the items of one list stand in one list element like theirs, in
order, and a numbered list counts them on where it left off, whether or not references are linked. -/
namespace Longform
namespace Page
open Html Footnote

/-- The number that a list starts with, whatever its length: one, unless its attribute says otherwise. -/
def startValue? (attrs : Dictionary Text) : Option Int :=
  match attrs.find? "start".toList with
  | none | some [] => some 1
  | some t => Decimal.value? 10 t

/-- The number that the item of a list with an ordinal has. -/
def number? (attrs : Dictionary Text) (ordinal : Nat) : Option Int :=
  (startValue? attrs).map fun n => n + ordinal

/-- Attributes of a list other than its start. -/
def unnumbered (attrs : Dictionary Text) : Dictionary Text := attrs.filter fun a => a.1 ≠ "start".toList

/-! Items. -/

/-- An item as it is read from its markup in a list. -/
def itemRead (tag : Text) (item : Node) : Node := (blockNode item).reread [tag]

/-- An item with its references linked. -/
def itemLinked (known : Text → Bool) (unit : Int) : Node → Node
  | .text kind t => .text kind t
  | .element name attrs children =>
    .element name attrs (if isLiteral name then children else linkAll known unit children)

/-- An item as it is shown on a page: when notes are listed there, it has been read, its references have
been linked, and it has been written again. -/
def itemShown (known : Text → Bool) (unit : Int) (noted : Bool) (tag : Text) (item : Node) : Node :=
  if noted then itemRead tag (itemLinked known unit (itemRead tag item)) else itemRead tag item

/-- The markup shows a run as one list element: its attributes are those of the list but for the start,
its items are those of the run, and their numbers go on from those before. -/
structure ShowsRun (r : Run) (shown : Node → Node) (f : Text) (attrs : Dictionary Text)
    (inside : List Node) : Prop where
  parse : Html.parse f = .ok [.element r.tag attrs inside]
  unnumbered : (unnumbered attrs).Perm (unnumbered r.attrs)
  items : inside.filter isItem = r.items.map shown
  numbers : r.tag = "ol".toList →
    ∃ n, startValue? r.attrs = some n ∧ ∀ i, number? attrs i = some (n + (r.first + i : Nat))

/-- The fragment of a part on a page. -/
def Part.Shows (known : Text → Bool) (unit : Int) (noted : Bool) : Part → Text → Prop
  | .whole html,f => noted = false → f = html
  | .run r,f => ∃ attrs inside, ShowsRun r (itemShown known unit noted r.tag) f attrs inside

/-- Items of the lists at the top are written so that they are read again. -/
def ItemsClear (ns : List Node) : Prop := ∀ name attrs children, .element name attrs children ∈ ns →
  isList name = true → ∀ n ∈ children, isItem n = true → Clear n

/-! Attributes of a list that is continued. -/

section Attributes

theorem unnumbered_set (v : Text) (attrs : Dictionary Text) :
    unnumbered (attrs.set "start".toList v) = unnumbered attrs :=
  Dictionary.filter_set (p:=fun k => k ≠ "start".toList) v (decide_eq_false (not_not.mpr rfl)) attrs

theorem exists_startValue {attrs : Dictionary Text} (h : StartsWhole attrs) :
    ∃ n, startValue? (Dictionary.ofEntries attrs) = some n := by
  unfold startValue?
  split
  · exact ⟨1,rfl⟩
  · exact ⟨1,rfl⟩
  · rename_i t hne ht
    exact (h t ht).resolve_left hne

/-- The start that is read is the number that it says. -/
theorem startValue?_of_start {attrs : Dictionary Text} {n : Int} (h : start attrs = .ok n) :
    startValue? attrs = some n := by
  unfold start at h
  unfold startValue?
  rcases hs : attrs.find? "start".toList with _ | (_ | ⟨c,r⟩) <;> rw [hs] at h
  · cases h
    rfl
  · cases h
    rfl
  · exact Decimal.value?_of_integer? h

theorem startValue?_set {n : Int} {t : Text} (h : Decimal.write n = .ok t) (attrs : Dictionary Text) :
    startValue? (attrs.set "start".toList t) = some n := by
  have hvalue := Decimal.value?_of_integer? (Decimal.integer?_of_write h)
  unfold startValue?
  rw [Dictionary.find?_set]
  cases t with
  | nil => exact nomatch hvalue
  | cons c r => exact hvalue

theorem startValue?_perm {attrs attrs' : Dictionary Text} (h : attrs.Perm attrs') (hd : attrs.keys.Nodup) :
    startValue? attrs' = startValue? attrs := by
  unfold startValue?
  rw [Dictionary.find?_perm h hd]

theorem isKept_set_start {tag : Text} {attrs : Dictionary Text} (hlist : isList tag = true)
    (h : IsKept tag attrs) (v : Text) : IsKept tag (attrs.set "start".toList v) where
  names a ha := by
    rcases Dictionary.mem_set ha with hk | hmem
    · exact hk ▸ isAttributeName_start
    · exact h.names a hmem
  lower a ha := by
    rcases Dictionary.mem_set ha with hk | hmem
    · rw [hk]
      decide
    · exact h.lower a hmem
  nodup := Dictionary.nodup_keys_set v h.nodup
  words a ha hwords := by
    have hno : Builder.isListAttribute tag "start".toList = false := by
      rcases eq_of_isList hlist with rfl | rfl <;> decide
    rcases Dictionary.mem_set ha with hk | hmem
    · rw [hk,hno] at hwords
      cases hwords
    · exact h.words a hmem hwords
  charset hmeta := by
    rcases eq_of_isList hlist with rfl | rfl <;> exact absurd hmeta (by decide)

variable {m : Membership} {attrs : Dictionary Text}

/-- The attributes of a list that goes on with a later item. -/
theorem attributes_ok (hlist : isList m.tag = true) (hkept : IsKept m.tag m.attrs)
    (h : attributes m = .ok attrs) : IsKept m.tag attrs ∧ unnumbered attrs = unnumbered m.attrs ∧
      (m.tag = "ol".toList → ∀ n, startValue? m.attrs = some n →
        startValue? attrs = some (n + m.ordinal)) := by
  have hentries : Dictionary.ofEntries m.attrs = m.attrs := Dictionary.ofEntries_of_nodup hkept.nodup
  simp only [attributes,hentries] at h
  split at h
  · obtain ⟨t,ht,rfl⟩ := map_eq_ok_iff.mp h
    refine ⟨isKept_set_start hlist hkept _,unnumbered_set _ _,fun _ n hn => ?_⟩
    obtain ⟨k,hk,hwrite⟩ := bind_eq_ok_iff.mp ht
    cases (startValue?_of_start hk).symm.trans hn
    exact startValue?_set hwrite _
  · rename_i hno
    cases h
    refine ⟨hkept,rfl,fun hol n hn => ?_⟩
    have hzero : m.ordinal = 0 := by simpa [hol] using hno
    rw [hn,hzero,Int.add_zero]

end Attributes

/-! Reading a run. -/

section Reading
variable {r : Run} {ns : List Node} {f : Text}

theorem Run.IsOf.forall_items {P : Node → Prop} (hr : r.IsOf ns) (h : ∀ attrs children,
    .element r.tag attrs children ∈ ns → ∀ n ∈ children, isItem n = true → P n) :
    ∀ n ∈ r.items, isItem n = true ∧ P n := by
  obtain ⟨⟨children,hlist,hitems⟩,-,-⟩ := hr
  intro n hn
  have hmem := List.mem_filter.mp (List.mem_of_mem_drop (hitems.subset hn))
  exact ⟨hmem.2,h _ _ (List.mem_of_getElem? hlist) n hmem.1 hmem.2⟩

theorem Run.IsOf.legible_items (hr : r.IsOf ns) (hs : ∀ n ∈ ns, Sound [] n) (hclear : ItemsClear ns) :
    ∀ n ∈ r.items, isItem n = true ∧ Legible n := by
  refine hr.forall_items fun as children hmem n hn hitem => ?_
  obtain ⟨-,-,-,-,hchildren⟩ := hs _ hmem
  exact legible_of_sound (soundAll_iff.mp hchildren n hn) (hclear _ _ _ hmem hr.tag n hn hitem)

theorem isItem_blockNode (n : Node) : isItem (blockNode n) = isItem n := by
  cases n <;> rfl

theorem printed_item {n : Node} (h : isItem n = true) : n.printed = [blockNode n] := by
  obtain ⟨attrs,children,rfl⟩ := exists_of_isElement h
  rfl

theorem filter_intersperse (xs : List Node) :
    (xs.intersperse newline).filter isItem = xs.filter isItem := by
  have hnewline : isItem newline = false := rfl
  induction xs with
  | nil => rfl
  | cons x xs ih =>
    rw [intersperse_cons,List.filter_cons,List.filter_cons]
    have hbehind : (linesBehind xs).filter isItem = xs.filter isItem := by
      cases xs with
      | nil => rfl
      | cons y ys => rw [linesBehind,List.filter_cons_of_neg (by simp [hnewline]),ih]
    rw [hbehind]

/-- The items of a list on lines of their own. -/
theorem filter_lines {xs : List Node} (h : ∀ x ∈ xs, isItem x = true) :
    (newline::(xs.intersperse newline ++ [newline])).filter isItem = xs := by
  have hnewline : isItem newline = false := rfl
  rw [List.filter_cons_of_neg (by simp [hnewline]),List.filter_append,filter_intersperse,
    List.filter_cons_of_neg (by simp [hnewline]),List.filter_nil,List.append_nil,
    List.filter_eq_self.mpr h]

theorem legible_lines {xs : List Node} (h : ∀ x ∈ xs, Legible x) :
    LegibleAll (newline::(xs.intersperse newline ++ [newline])) := by
  have hbetween : LegibleAll (xs.intersperse newline) := by
    induction xs with
    | nil => trivial
    | cons x xs ih =>
      obtain ⟨hx,hxs⟩ := List.forall_mem_cons.mp h
      rw [intersperse_cons]
      cases xs with
      | nil => exact ⟨hx,trivial⟩
      | cons y ys => exact ⟨hx,trivial,ih hxs⟩
  exact ⟨trivial,legibleAll_append_iff.mpr ⟨hbetween,trivial,trivial⟩⟩

theorem number?_of_startValue {attrs : Dictionary Text} {n : Int} (h : startValue? attrs = some n)
    (i : Nat) : number? attrs i = some (n + i) := by
  rw [number?,h]
  rfl

/-- The list that a run is put together to, as it is read. -/
theorem exists_showsRun (hr : r.IsOf ns) (hs : ∀ n ∈ ns, Sound [] n) (hclear : ItemsClear ns)
    (hstart : r.tag = "ol".toList → StartsWhole r.attrs)
    (hf : listMarkup ⟨r.tag,r.attrs,r.position,r.first⟩ (r.items.map (Node.markup false)) = .ok f) :
    ∃ attrs inside, ShowsRun r (itemRead r.tag) f attrs inside ∧ attrs.keys.Nodup ∧
      Legible (.element r.tag attrs inside) := by
  obtain ⟨⟨source,hsource,-⟩,htag,-⟩ := id hr
  obtain ⟨-,hkept,-⟩ := hs _ (List.mem_of_getElem? hsource)
  obtain ⟨attrs,hattrs⟩ := exists_attributes hf
  obtain ⟨hkept',hunnumbered,hnumbers⟩ := attributes_ok htag hkept hattrs
  obtain ⟨hname,hclose,hvoid,hliteral⟩ := isElementName_of_isList htag
  have hitems := hr.legible_items hs hclear
  have hreads : List.Forall₂ (fun f x => Reads f [x]) (r.items.map (Node.markup false))
      (r.items.map blockNode) := by
    refine List.forall₂_map_left_iff.mpr (List.forall₂_map_right_iff.mpr ?_)
    refine List.forall₂_same.mpr fun n hn => ?_
    rw [← printed_item (hitems n hn).1]
    exact reads_node (hitems n hn).2
  have hlegible : Legible (.element r.tag attrs
      (newline::((r.items.map blockNode).intersperse newline ++ [newline]))) := by
    refine ⟨hname,hclose,hkept'.names,fun hv => absurd (hvoid.symm.trans hv) Bool.false_ne_true,?_⟩
    rw [if_neg (Bool.eq_false_iff.mp hliteral)]
    refine legible_lines (List.forall_mem_map.mpr fun n hn => ?_)
    have hprinted := legible_printed (hitems n hn).2
    rw [printed_item (hitems n hn).1] at hprinted
    exact hprinted.1
  have hread := parse_of_reads (reads_listMarkup htag hattrs hkept'.names hreads hf)
  have hagain := @legible_reread [] _ hlegible
  rw [rereadAll_marked rfl,Node.reread,hkept'.kept_readAttributes,hvoid] at hread
  rw [Node.reread,hkept'.kept_readAttributes,hvoid] at hagain
  refine ⟨attrs,_,⟨hread,hunnumbered ▸ .refl _,?_,fun hol => ?_⟩,hkept'.nodup,hagain⟩
  · rw [if_neg Bool.false_ne_true]
    have hall : ∀ x ∈ r.items.map blockNode, isItem x = true :=
      List.forall_mem_map.mpr fun n hn => (isItem_blockNode n).trans (hitems n hn).1
    refine (filter_rereadAll "li".toList _ _ _).trans ?_
    exact (congrArg (List.map (Node.reread [r.tag])) (filter_lines hall)).trans List.map_map
  · obtain ⟨n,hn⟩ := exists_startValue (hstart hol)
    rw [Dictionary.ofEntries_of_nodup hkept.nodup] at hn
    refine ⟨n,hn,fun i => ?_⟩
    rw [number?_of_startValue (hnumbers hol n hn),Int.natCast_add]
    exact congrArg some (Int.add_assoc _ _ _)

/-! Linking a run. -/

theorem linkNode_item {n : Node} (h : isItem n = true) (known : Text → Bool) (unit : Int) :
    linkNode known unit n = [itemLinked known unit n] := by
  obtain ⟨attrs,children,rfl⟩ := exists_of_isElement h
  rfl

theorem isItem_itemLinked (known : Text → Bool) (unit : Int) (n : Node) :
    isItem (itemLinked known unit n) = isItem n := by
  cases n <;> rfl

theorem isItem_piece (unit : Int) (p : Piece) : isItem (p.node unit) = false := by
  cases p <;> rfl

/-- Linking references makes no items and takes none away. -/
theorem filter_linkAll (known : Text → Bool) (unit : Int) (ns : List Node) :
    (linkAll known unit ns).filter isItem = (ns.filter isItem).map (itemLinked known unit) := by
  induction ns with
  | nil => rfl
  | cons n ns ih =>
    rw [linkAll,List.filter_append,ih]
    cases hitem : isItem n with
    | true =>
      rw [linkNode_item hitem,List.filter_cons_of_pos ((isItem_itemLinked known unit n).trans hitem),
        List.filter_cons_of_pos hitem]
      rfl
    | false =>
      have hnone : (linkNode known unit n).filter isItem = [] := by
        cases n with
        | text kind t =>
          rw [linkNode,linkText]
          split
          · rfl
          · refine List.filter_eq_nil_iff.mpr (List.forall_mem_map.mpr fun p _ => ?_)
            simp [isItem_piece]
        | element name attrs children =>
          have hno := (isItem_itemLinked known unit _).trans hitem
          have hlinked : linkNode known unit (.element name attrs children) =
              [itemLinked known unit (.element name attrs children)] := rfl
          rw [hlinked,List.filter_cons_of_neg (by simp [hno])]
          rfl
      rw [hnone,List.filter_cons_of_neg (by simp [hitem])]
      rfl

theorem filter_printedAll (ns : List Node) :
    (Node.printedAll ns).filter isItem = (ns.filter isItem).map blockNode := by
  induction ns with
  | nil => rfl
  | cons n ns ih =>
    rw [Node.printedAll,List.filter_append,ih]
    cases n with
    | text kind t => cases kind <;> rfl
    | element tag attrs children =>
      have hprinted : (Node.element tag attrs children).printed =
          [blockNode (.element tag attrs children)] := rfl
      rw [hprinted,List.filter_cons,List.filter_cons,isItem_blockNode]
      split <;> rfl

theorem perm_filter_sortedAttrs (attrs : Dictionary Text) :
    (unnumbered (sortedAttrs attrs)).Perm (unnumbered attrs) :=
  (sortedAttrs_perm attrs).filter _

/-- What is read of a fragment with its references linked. -/
theorem parse_linked {notes : Dictionary Text} {unit : Int} {g : Text} (hparse : Html.parse f = .ok ns)
    (hlegible : LegibleAll ns) (hg : Footnote.linked notes unit f = .ok g) :
    Html.parse g = .ok (Node.rereadAll [] none (Node.printedAll (linkAll notes.hasKey unit ns))) := by
  have hall : LegibleAll (Sketch.fillAll (link unit) (sketchAll notes.hasKey ns)) :=
    legible_sketchAll hlegible
  rw [fillAll_sketchAll] at hall
  rw [Footnote.linked,hparse] at hg
  cases hg
  exact parse_of_reads (reads_nodes hall)

/-- The list of a run with its references linked, as it is read again. -/
theorem ShowsRun.linked {shown : Node → Node} {attrs : Dictionary Text} {inside : List Node}
    (h : ShowsRun r shown f attrs inside) (htag : isList r.tag = true) (hnodup : attrs.keys.Nodup)
    (hlegible : Legible (.element r.tag attrs inside)) {notes : Dictionary Text} {unit : Int} {g : Text}
    (hg : Footnote.linked notes unit f = .ok g) : ∃ attrs' inside',
      ShowsRun r (fun n => itemRead r.tag (itemLinked notes.hasKey unit (shown n))) g attrs' inside' := by
  have hsound := sound_of_parse h.parse _ List.mem_cons_self
  obtain ⟨-,hkept,-⟩ := hsound
  obtain ⟨-,-,hvoid,-⟩ := isElementName_of_isList htag
  have hliteral : isLiteral r.tag = false := by
    rcases eq_of_isList htag with htag | htag <;> rw [htag] <;> rfl
  have hlinked : linkAll notes.hasKey unit [.element r.tag attrs inside] =
      [.element r.tag attrs (linkAll notes.hasKey unit inside)] := by
    simp [linkAll,linkNode,hliteral]
  have hread := parse_linked h.parse ⟨hlegible,trivial⟩ hg
  have hsorted := (hkept.perm (sortedAttrs_perm attrs).symm).kept_readAttributes
  have hprinted : Node.printedAll [.element r.tag attrs (linkAll notes.hasKey unit inside)] =
      [.element r.tag (sortedAttrs attrs) (Node.printedAll (linkAll notes.hasKey unit inside))] := rfl
  rw [hlinked,hprinted,rereadAll_marked rfl,Node.reread,hsorted,hvoid] at hread
  refine ⟨sortedAttrs attrs,_,⟨hread,?_,?_,fun hol => ?_⟩⟩
  · exact (perm_filter_sortedAttrs attrs).trans h.unnumbered
  · rw [if_neg Bool.false_ne_true]
    refine (filter_rereadAll "li".toList _ _ _).trans ?_
    have hitems := (filter_printedAll (linkAll notes.hasKey unit inside)).trans
      (congrArg (List.map blockNode) (filter_linkAll notes.hasKey unit inside))
    rw [h.items,List.map_map,List.map_map] at hitems
    exact (congrArg (List.map (Node.reread [r.tag])) hitems).trans List.map_map
  · obtain ⟨n,hn,hnumbers⟩ := h.numbers hol
    refine ⟨n,hn,fun i => ?_⟩
    rw [← hnumbers i,number?,startValue?_perm (sortedAttrs_perm attrs).symm hnodup]
    rfl

end Reading

/-! Pages. -/

/-- A page that lists notes has its fragments linked, one by one; another has them as they are. -/
theorem annotate_ok {s : Setting} {index : Nat} {fs : List Text} {u : List Text × List Text × Text}
    (h : annotate s index fs = .ok u) : u.2.1 = [] ∧ u.1 = fs ∨
      u.2.1 ≠ [] ∧ fs.mapM (Footnote.linked s.notes ((index : Int) - 1)) = .ok u.1 := by
  unfold annotate at h
  split at h
  · cases h
    exact .inl ⟨rfl,rfl⟩
  obtain ⟨a,-,h⟩ := bind_eq_ok_iff.mp h
  simp only at h
  split at h
  · rename_i hids
    cases h
    exact .inl ⟨List.isEmpty_iff.mp hids,rfl⟩
  · rename_i hids
    obtain ⟨linked,hlinked,h⟩ := bind_eq_ok_iff.mp h
    cases h
    exact .inr ⟨by simpa using hids,hlinked⟩

section Shows
variable {ns : List Node} {part : Part} {f g : Text} (hpart : ∀ r, part = .run r → r.IsOf ns ∧
    (r.tag = "ol".toList → StartsWhole r.attrs)) (hs : ∀ n ∈ ns, Sound [] n) (hclear : ItemsClear ns)

include hpart hs hclear in
theorem Part.shows_of_isFragment (known : Text → Bool) (unit : Int) (h : part.IsFragment f) :
    part.Shows known unit false f := by
  cases part with
  | whole html => exact fun _ => h
  | run r =>
    obtain ⟨hr,hstart⟩ := hpart r rfl
    obtain ⟨attrs,inside,hshows,-⟩ := exists_showsRun hr hs hclear hstart h
    exact ⟨attrs,inside,hshows⟩

include hpart hs hclear in
theorem Part.shows_of_linked {notes : Dictionary Text} {unit : Int} (h : part.IsFragment f)
    (hg : Footnote.linked notes unit f = .ok g) : part.Shows notes.hasKey unit true g := by
  cases part with
  | whole html => exact fun hfalse => nomatch hfalse
  | run r =>
    obtain ⟨hr,hstart⟩ := hpart r rfl
    obtain ⟨attrs,inside,hshows,hnodup,hlegible⟩ := exists_showsRun hr hs hclear hstart h
    exact hshows.linked hr.tag hnodup hlegible hg

end Shows

/-- On every page the items of one list stand in one list element, with the attributes of their list but
for its start, in order, and each has the number that it has in the chapter. -/
theorem paginate_numbers_items (s : Setting) (cs : List Chapter.Rendered)
    (hnum : ∀ c ∈ cs, NumberedLists c.html)
    (hclear : ∀ c ∈ cs, ∀ ns, Html.parse c.html = .ok ns → ItemsClear ns) (pages : List Page)
    (h : (paginate s cs).Gives (.ok pages)) :
    ∀ p ∈ pages, ∃ c ∈ cs, ∃ ns parts, Html.parse c.html = .ok ns ∧ Divided ns 0 p.blocks parts ∧
      List.Forall₂ (Part.Shows s.notes.hasKey ((p.index : Int) - 1) !p.noteIds.isEmpty)
        parts p.fragments := by
  intro p hp
  obtain ⟨c,hc,bs,us,index,hcut,hus,hmake⟩ := exists_made h p hp
  obtain ⟨ns,hparse⟩ : ∃ ns, Html.parse c.html = .ok ns := by
    cases hparse : Html.parse c.html with
    | ok ns => exact ⟨ns,rfl⟩
    | error e =>
      rw [cut,hparse] at hcut
      cases hcut
  obtain rfl := Except.ok.inj ((cut_eq hparse).symm.trans hcut)
  obtain ⟨parts,hparts⟩ := exists_divided hus
  obtain ⟨fs,hfs,hmake⟩ := bind_eq_ok_iff.mp hmake
  obtain ⟨u,hu,hmake⟩ := bind_eq_ok_iff.mp hmake
  cases hmake
  have hfragments := forall₂_isFragment hparts hfs
  refine ⟨c,hc,ns,parts,hparse,hparts,?_⟩
  have hpart : ∀ part ∈ parts, ∀ r, part = .run r → r.IsOf ns ∧
      (r.tag = "ol".toList → StartsWhole r.attrs) := by
    rintro part hmem r rfl
    have hr := hparts.runs r hmem
    obtain ⟨⟨children,hlist,-⟩,-,-⟩ := id hr
    exact ⟨hr,fun hol => hnum c hc ns hparse r.attrs children (hol ▸ List.mem_of_getElem? hlist)⟩
  have hall := (List.forall₂_and_left parts fs).mpr ⟨hpart,hfragments⟩
  have hsound := sound_of_parse hparse
  have hitems := hclear c hc ns hparse
  rcases annotate_ok hu with ⟨hids,hlinked⟩ | ⟨hids,hlinked⟩
  · simp only [hids,hlinked,List.isEmpty_nil,Bool.not_true]
    exact hall.imp fun _ _ h => Part.shows_of_isFragment h.1 hsound hitems _ _ h.2
  · have hsome : u.2.1.isEmpty = false := by simpa using hids
    simp only [hsome,Bool.not_false]
    exact forall₂_mapM (fun _ _ _ h hg => Part.shows_of_linked h.1 hsound hitems h.2 hg) hall hlinked

/-- A list counted on from three over two pages. -/
theorem paginate_numbers_items_two :
    let html := "<ol start=\"3\"><li>x</li><li>y</li></ol>".toList
    let s : Setting := ⟨"D".toList,fitsIn (fun fragments => .ok fragments.length) 0,[],.ok⟩
    let cs : List Chapter.Rendered := [⟨"T".toList,html⟩]
    (∀ c ∈ cs, NumberedLists c.html) ∧
      (∀ c ∈ cs, ∀ ns, Html.parse c.html = .ok ns → ItemsClear ns) ∧
      ∃ p q, (paginate s cs).Gives (.ok [p,q]) ∧
        p.fragments = ["<ol start=\"3\">\n<li>x</li>\n</ol>".toList] ∧
        q.fragments = ["<ol start=\"4\">\n<li>y</li>\n</ol>".toList] ∧
        ∀ page ∈ [p,q], ∃ c ∈ cs, ∃ ns parts, Html.parse c.html = .ok ns ∧
          Divided ns 0 page.blocks parts ∧ List.Forall₂
            (Part.Shows s.notes.hasKey ((page.index : Int) - 1) !page.noteIds.isEmpty)
            parts page.fragments := by
  intro html s cs
  have hread : Html.parse "<ol start=\"3\"><li>x</li><li>y</li></ol>".toList = .ok [
      .element "ol".toList [("start".toList,"3".toList)]
        [.element "li".toList [] [.text .shown "x".toList],
          .element "li".toList [] [.text .shown "y".toList]]] := by rfl
  have hnum : ∀ c ∈ cs, NumberedLists c.html := by
    intro c hc ns hns attrs children hmem
    cases List.mem_singleton.mp hc
    cases hread.symm.trans hns
    cases List.mem_singleton.mp hmem
    intro t ht
    cases ht
    exact .inr ⟨3,by rfl⟩
  have hclear : ∀ c ∈ cs, ∀ ns, Html.parse c.html = .ok ns → ItemsClear ns := by
    intro c hc ns hns name attrs children hmem _ n hn _
    cases List.mem_singleton.mp hc
    cases hread.symm.trans hns
    cases List.mem_singleton.mp hmem
    simp only [List.mem_cons,List.not_mem_nil,or_false] at hn
    rcases hn with rfl | rfl <;>
      exact ⟨by decide,fun h => absurd h (by decide),clear_text (by decide),trivial⟩
  let x : Node := .element "li".toList [] [.text .shown "x".toList]
  let y : Node := .element "li".toList [] [.text .shown "y".toList]
  let blocks := runBlocks "ol".toList [("start".toList,"3".toList)] 0
  have hx : assemble (blocks 0 [x]) = .ok ["<ol start=\"3\">\n<li>x</li>\n</ol>".toList] :=
    assemble_runBlocks (by simp) rfl
  have hy : assemble (blocks 1 [y]) = .ok ["<ol start=\"4\">\n<li>y</li>\n</ol>".toList] :=
    assemble_runBlocks (by simp) rfl
  have hxy : assemble (blocks 0 [x,y]) =
      .ok ["<ol start=\"3\">\n<li>x</li>\n<li>y</li>\n</ol>".toList] :=
    assemble_runBlocks (by simp) rfl
  obtain ⟨p,hp,hpf⟩ : ∃ p, make s "T".toList 1 (blocks 0 [x]) = .ok p ∧
      p.fragments = ["<ol start=\"3\">\n<li>x</li>\n</ol>".toList] := by
    rw [make,hx]
    exact ⟨_,rfl,rfl⟩
  obtain ⟨q,hq,hqf⟩ : ∃ q, make s "T".toList 2 (blocks 1 [y]) = .ok q ∧
      q.fragments = ["<ol start=\"4\">\n<li>y</li>\n</ol>".toList] := by
    rw [make,hy]
    exact ⟨_,rfl,rfl⟩
  have hnever : ∀ {us f}, assemble us = .ok [f] → fitBlocks s.fits us = .ok false := fun h => by
    rw [fitBlocks,h]
    rfl
  have hfilling : Filling (fitBlocks s.fits) [] (blocks 0 [x,y]) [blocks 0 [x],blocks 1 [y]] :=
    .alone (hnever hx) (.turn false (List.cons_ne_nil _ _) (hnever hxy) (hnever hy)
      (.last (List.cons_ne_nil _ _)))
  have hgives : (paginate s cs).Gives (.ok [p,q]) := gives_of_filling (cut_eq hread) hfilling (by
    simp only [List.zipIdx_cons,List.zipIdx_nil,List.mapM_cons,List.mapM_nil,hp,hq]
    rfl)
  exact ⟨hnum,hclear,p,q,hgives,hpf,hqf,paginate_numbers_items s cs hnum hclear [p,q] hgives⟩

/-- A declaration that holds tags is written as an instruction that ends before them. Read again, they
end the list and begin another, and each of the two shows one of the items. -/
theorem paginate_splits_list :
    let s : Setting := ⟨"D".toList,fitsIn (fun fragments => .ok fragments.length) 5,
      [("1".toList,"n".toList)],.ok⟩
    let c : Chapter.Rendered :=
      ⟨"T".toList,"<ol><li>a<![if ></ol><ol>]></li><li>b[^1]</li></ol>".toList⟩
    ∃ p f first second, (paginate s [c]).Gives (.ok [p]) ∧
      (∀ b ∈ p.blocks, ∃ m, b.membership = some m ∧ m.list = 0) ∧ p.fragments = [f] ∧
      Html.parse f = .ok [.element "ol".toList [] first,.element "ol".toList [] second] ∧
      (first.filter isItem).length = 1 ∧ (second.filter isItem).length = 1 := by
  intro s c
  let items : List Node := [.element "li".toList [] [.text .shown "a".toList,
      .text .declaration "if ></ol><ol>".toList],.element "li".toList [] [.text .shown "b[^1]".toList]]
  let first : List Node := [.text .shown "\n".toList,.element "li".toList [] [.text .shown "a".toList,
      .text .instruction "if ".toList]]
  have hread : Html.parse "<ol><li>a<![if ></ol><ol>]></li><li>b[^1]</li></ol>".toList =
      .ok [.element "ol".toList [] items] := by rfl
  have hassemble : assemble (runBlocks "ol".toList [] 0 0 items) =
      .ok ["<ol>\n<li>a<?if ></ol><ol>?></li>\n<li>b[^1]</li>\n</ol>".toList] :=
    assemble_runBlocks (by simp [items]) rfl
  have hagain : Html.parse "<ol>\n<li>a<?if ></ol><ol>?></li>\n<li>b[^1]</li>\n</ol>".toList =
      .ok [.element "ol".toList [] first,.element "ol".toList [] [.text .shown "?>".toList,
        .text .shown "\n".toList,.element "li".toList [] [.text .shown "b[^1]".toList],
        .text .shown "\n".toList]] := by rfl
  have hmore : ∀ name inside, Closable name → isLiteralName name = false → ClearAll inside →
      Clear (.element name [] inside) := fun name inside hclose hliteral hinside =>
    ⟨hclose,fun h => absurd (hliteral.symm.trans h) Bool.false_ne_true,hinside⟩
  have hclear : ClearAll [.element "ol".toList [] first,.element "ol".toList [] [.text .shown "?>".toList,
      .text .shown "\n".toList,.element "li".toList [] [.text .shown "b[^1]".toList],
      .text .shown "\n".toList]] := by
    have htext : ∀ t, Clear (.text .shown t) := fun t => clear_text (by decide)
    have ha : Clear (.element "li".toList [] [.text .shown "a".toList,.text .instruction "if ".toList]) :=
      hmore _ _ (by decide) rfl ⟨htext _,clear_text (by decide),trivial⟩
    have hb : Clear (.element "li".toList [] [.text .shown "b[^1]".toList]) :=
      hmore _ _ (by decide) rfl ⟨htext _,trivial⟩
    exact ⟨hmore _ _ (by decide) rfl ⟨htext _,ha,trivial⟩,
      hmore _ _ (by decide) rfl ⟨htext _,htext _,hb,htext _,trivial⟩,trivial⟩
  obtain ⟨p,hmake,-,hfragments⟩ := exists_make (s:=s) c.title 1 hassemble (.cons hagain .nil) hagain
    (by decide) fun note => ⟨note,rfl⟩
  have hfits : ∀ {us f}, assemble us = .ok [f] → fitBlocks s.fits us = .ok true := fun h => by
    rw [fitBlocks,h]
    rfl
  have hone : assemble (runBlocks "ol".toList [] 0 0 (items.take 1)) = .ok [_] :=
    assemble_runBlocks (by simp [items]) rfl
  have hfilling : Filling (fitBlocks s.fits) [] (runBlocks "ol".toList [] 0 0 items)
      [runBlocks "ol".toList [] 0 0 items] :=
    .add (hfits hone) (.add (hfits hassemble) (.last (List.cons_ne_nil _ _)))
  have hgives : (paginate s [c]).Gives (.ok [p]) := gives_of_filling (cut_eq hread) hfilling (by
    simp only [List.zipIdx_cons,List.zipIdx_nil,List.mapM_cons,List.mapM_nil,hmake]
    rfl)
  have hlinked := @parse_linked _ _ s.notes (((1 : Nat) : Int) - 1) _ hagain
    (legibleAll_of_sound (soundAll_iff.mpr (sound_of_parse hagain)) hclear)
    (by rw [Footnote.linked,hagain]; rfl)
  refine ⟨p,_,_,_,hgives,?_,hfragments,hlinked.trans rfl,rfl,rfl⟩
  rw [(make_ok hmake).2.1]
  exact fun b hb => membership_of_mem_runBlocks hb

end Page
end Longform
