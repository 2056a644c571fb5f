import Longform.Proofs.Footnote.Anchor
import Longform.Proofs.Html.Writing

/-! The list of notes as it is read. Ids stand in it as they are, between quotes: without quotes of their
own they open nothing, but references in them are read. -/
namespace Longform

namespace Footnote
open Html

/-! The tree of a list. -/

def backAttributes (address : Text) : Dictionary Text :=
  [("href".toList,address),("class".toList,"footnote-backref".toList)]

/-- The link back from a note. -/
def backLink (unit : Int) (id : Text) : Node :=
  .element "a".toList (backAttributes ('#' :: referenceAnchor unit id)) [.text .shown ['↩']]

/-- The item of a note: its anchor, the note and the link back. -/
def item (unit : Int) (id note : Text) : Node :=
  .element "li".toList [("id".toList,noteAnchor unit id)]
    [.text .shown (Builder.squeeze (note ++ [' '])),backLink unit id]

/-- A list of some items. -/
def listing (items : List Node) : List Node :=
  if items.isEmpty then []
  else [.element "div".toList [("class".toList,"unit-footnotes".toList)]
    [.element "ol".toList [("class".toList,"unit-footnotes-list".toList)] items]]

/-- The items of some notes under their ids. -/
def items (notes : Dictionary Text) (unit : Int) (ids : List Text) : List Node :=
  ids.map fun id => item unit id ((notes.find? id).getD [])

/-- The items of some notes under what is read of their ids, if that is possible for all. -/
def itemsRead (notes : Dictionary Text) (unit : Int) (ids : List Text) : Except Fault (List Node) :=
  ids.mapM fun id => (unescape id).map fun read => item unit read ((notes.find? id).getD [])

section Anchors
variable {unit : Int} {id read : Text}

theorem not_mem_numbered {p : Text} {c : Char} (hp : c ∉ p) (hdigit : c.isDigit = false) (hne : c ≠ '-') :
    c ∉ p ++ Text.ofInt unit ++ ['-'] := by
  have hunit : c ∉ Text.ofInt unit := by
    cases unit with
    | ofNat n =>
      have hn : c ∉ Text.ofInt (n : Nat) := not_mem_ofInt hdigit
      exact hn
    | negSucc n =>
      have hn : c ∉ Text.ofInt (n + 1 : Nat) := not_mem_ofInt hdigit
      exact List.not_mem_cons_of_ne_of_not_mem hne hn
  simp [hp,hunit,hne]

/-- What is in front of the id of an anchor is neither quote nor reference. -/
theorem unescape_numbered {p : Text} (hp : '&' ∉ p) : unescape (p ++ Text.ofInt unit ++ '-' :: id) =
    (unescape id).map fun read => p ++ Text.ofInt unit ++ '-' :: read := by
  have hsplit : ∀ t, p ++ Text.ofInt unit ++ '-' :: t = (p ++ Text.ofInt unit ++ ['-']) ++ t := by simp
  rw [hsplit id,unescape_append (not_mem_numbered hp rfl (by decide))]
  exact congrArg (Except.map · (unescape id)) (funext fun t => (hsplit t).symm)

theorem quote_not_mem_numbered {p : Text} (hp : '"' ∉ p) (hid : '"' ∉ id) :
    '"' ∉ p ++ Text.ofInt unit ++ '-' :: id := by
  rw [List.append_cons,List.mem_append,not_or]
  exact ⟨not_mem_numbered hp rfl (by decide),hid⟩

theorem quotes_numbered {p : Text} (hp : '"' ∉ p ∧ '&' ∉ p) (hid : '"' ∉ id)
    (hread : unescape id = .ok read) : Quotes (doubleQuoted (p ++ Text.ofInt unit ++ '-' :: id))
      (p ++ Text.ofInt unit ++ '-' :: read) := by
  refine quotes_unescape (quote_not_mem_numbered hp.1 hid) ?_
  rw [unescape_numbered hp.2,hread]
  rfl

theorem quotes_noteAnchor (hid : '"' ∉ id) (hread : unescape id = .ok read) :
    Quotes (doubleQuoted (noteAnchor unit id)) (noteAnchor unit read) :=
  quotes_numbered (p := "fn-def-".toList) (by decide) hid hread

/-- An anchor of a note between quotes. -/
theorem noteAnchor_raw (unit : Int) (hid : '"' ∉ id) :
    '"' ∉ noteAnchor unit id ∧ unescape (noteAnchor unit id) = (unescape id).map (noteAnchor unit) := by
  unfold noteAnchor
  have hp : '"' ∉ "fn-def-".toList ∧ '&' ∉ "fn-def-".toList := by decide
  generalize "fn-def-".toList = p at hp
  exact ⟨quote_not_mem_numbered hp.1 hid,unescape_numbered hp.2⟩

theorem quotes_backReference (hid : '"' ∉ id) (hread : unescape id = .ok read) :
    Quotes (doubleQuoted ('#' :: referenceAnchor unit id)) ('#' :: referenceAnchor unit read) :=
  quotes_numbered (p := '#' :: "fn-ref-".toList) (by decide) hid hread

end Anchors

/-! Reading. -/

section Reading
variable {unit : Int} {id read note : Text}

/-- Two values that differ can be written each in quotes of its own. -/
theorem exists_quote {v w : Text} (hne : v ≠ w) (q r : Text) :
    ∃ quote : Text → Text, quote v = q ∧ quote w = r :=
  ⟨fun u => if u = v then q else r,if_pos rfl,if_neg hne.symm⟩

theorem asRead_backAttributes (address : Text) :
    asRead "a".toList (backAttributes address) = backAttributes address := by rfl

theorem asRead_itemAttributes (anchor : Text) :
    asRead "li".toList [("id".toList,anchor)] = [("id".toList,anchor)] := by rfl

theorem nameable_backAttributes (address : Text) : Nameable (backAttributes address).keys :=
  (by decide : Nameable ["href".toList,"class".toList])

theorem nameable_itemAttributes (anchor : Text) : Nameable (Dictionary.keys [("id".toList,anchor)]) :=
  (by decide : Nameable ["id".toList])

theorem isContainer_link : IsContainer "a".toList := isContainer_cons (by decide)

theorem isContainer_item : IsContainer "li".toList := isContainer_cons (by decide)

/-- The start tag of a link back can be read, when its address can. -/
theorem exists_attributable {q address : Text} (hne : address ≠ "footnote-backref".toList)
    (h : Quotes (doubleQuoted q) address) : ∃ quote, Attributable quote (backAttributes address) ∧
      attributesText quote (backAttributes address) = attributesText doubleQuoted (backAttributes q) := by
  have hclass : Quotes (doubleQuoted "footnote-backref".toList) "footnote-backref".toList :=
    quotes_plain (by decide) (by decide)
  have hnames : IsAttributeName "href".toList ∧ IsAttributeName "class".toList := by decide
  unfold backAttributes
  generalize "footnote-backref".toList = c at hne hclass
  obtain ⟨quote,hfirst,hsecond⟩ := exists_quote hne (doubleQuoted q) (doubleQuoted c)
  refine ⟨quote,?_,?_⟩
  · simp only [Attributable,List.forall_mem_cons,hfirst,hsecond]
    exact ⟨⟨hnames.1,h⟩,⟨hnames.2,hclass⟩,List.forall_mem_nil _⟩
  · simp only [attributesText,List.flatMap_cons,hfirst,hsecond]
    rfl

theorem shows_backLink (unit : Int) (hid : '"' ∉ id) (hread : unescape id = .ok read) :
    Shows ('<' :: ("a".toList ++ (attributesText doubleQuoted
      (backAttributes ('#' :: referenceAnchor unit id)) ++ '>' :: (['↩'] ++ endText "a".toList))))
        (backLink unit read) := by
  have hne : '#' :: referenceAnchor unit read ≠ "footnote-backref".toList :=
    fun h => absurd (List.cons_eq_cons.mp h).1 (by decide)
  obtain ⟨quote,hquote,htext⟩ := exists_attributable hne (quotes_backReference hid hread)
  have hmark : ∀ c ∈ ['↩'], IsPlain c := List.forall_mem_singleton.mpr ⟨by decide,by decide⟩
  have hshow := shows_quoted isContainer_link (nameable_backAttributes _) hquote (reads_plain hmark)
    fun around ha => rereadAll_text ha rfl
  rw [htext,asRead_backAttributes] at hshow
  exact hshow

theorem itemMarkup_eq_quoted (unit : Int) (id value note : Text) :
    itemMarkup unit id (Text.escapeContent note) =
      '<' :: ("li".toList ++ (attributesText (fun _ => doubleQuoted (noteAnchor unit id))
        [("id".toList,value)] ++ '>' :: ((Text.escapeContent (note ++ [' ']) ++
          '<' :: ("a".toList ++ (attributesText doubleQuoted (backAttributes ('#' :: referenceAnchor unit id))
            ++ '>' :: (['↩'] ++ endText "a".toList)))) ++ endText "li".toList))) := by
  have hclose : "↩</a></li>".toList = ['↩'] ++ (endText "a".toList ++ endText "li".toList) := by decide
  have hescape : Text.escapeContent (note ++ [' ']) = Text.escapeContent note ++ [' '] :=
    List.flatMap_append
  rw [itemMarkup_eq,hclose,hescape]
  simp only [attributesText,backAttributes,List.flatMap_cons,List.flatMap_nil,List.append_assoc,
    List.cons_append,List.nil_append]

theorem shows_item (hid : '"' ∉ id) (hread : unescape id = .ok read) (note : Text) :
    Shows (itemMarkup unit id (Text.escapeContent note)) (item unit read note) := by
  have hquote : Attributable (fun _ => doubleQuoted (noteAnchor unit id))
      [("id".toList,noteAnchor unit read)] := by
    simp only [Attributable,List.forall_mem_singleton]
    exact ⟨by decide,quotes_noteAnchor hid hread⟩
  obtain ⟨y,hy,hlink,hback⟩ := shows_backLink unit hid hread
  have hinside := (reads_escapeContent (note ++ [' '])).append hlink
  have hheld : held (note ++ [' ']) none = some (note ++ [' ']) := by simp [held]
  have hkept : ∀ around, IsQuiet around →
      Node.rereadAll around none ([.text .shown (note ++ [' '])] ++ [y]) =
        [.text .shown (Builder.squeeze (note ++ [' '])),backLink unit read] := by
    intro around ha
    show Node.rereadAll around (held (note ++ [' ']) none) [y] = _
    simp only [hheld,Node.rereadAll,hy,flushed,finished_of_isQuiet ha,hback around ha]
    rfl
  have hshow := shows_quoted isContainer_item (nameable_itemAttributes _) hquote hinside hkept
  rw [asRead_itemAttributes] at hshow
  rw [itemMarkup_eq_quoted]
  exact hshow

/-- The start tag of an item with an anchor that cannot be read. -/
theorem step_anchor {anchor : Text} {e : Fault} (hquote : '"' ∉ anchor) (h : unescape anchor = .error e)
    (rest : Text) (b : Builder) :
    step false ⟨'<' :: ("li".toList ++ (attributesText (fun _ => doubleQuoted anchor)
      [("id".toList,[])] ++ '>' :: rest)),b,none⟩ = .refused e := by
  have hquoted : Separable (fun _ => doubleQuoted anchor) [("id".toList,[])] := by
    simp only [Separable,List.forall_mem_singleton]
    exact ⟨by decide,isQuoted_doubleQuoted hquote⟩
  have hentry : (Written.mk "id".toList (some (doubleQuoted anchor))).entry = .error e := by
    rw [Written.entry,doubleQuoted,List.cons_append,Written.text_marked (.inl rfl),h]
    rfl
  refine step_refused isContainer_item.element hquoted ?_ b
  simp only [Opening.attributes,List.map_singleton,List.mapM_cons,hentry]
  rfl

/-- An item whose id cannot be read. -/
theorem step_item (unit : Int) (hid : '"' ∉ id) {e : Fault} (hread : unescape id = .error e) (note rest : Text)
    (b : Builder) :
    step false ⟨itemMarkup unit id (Text.escapeContent note) ++ rest,b,none⟩ = .refused e := by
  obtain ⟨hquote,hvalue⟩ := noteAnchor_raw unit hid
  rw [hread] at hvalue
  rw [itemMarkup_eq_quoted unit id [] note]
  simp only [List.cons_append,List.append_assoc]
  exact step_anchor hquote hvalue _ b

/-- An element of one class around others. -/
theorem shows_classed (name c : Text) {fs : List Text} {xs : List Node} (hname : IsContainer name)
    (hc : '"' ∉ c ∧ '&' ∉ c) (hread : asRead name [("class".toList,c)] = [("class".toList,c)])
    (hfs : List.Forall₂ Shows fs xs) :
    Shows ('<' :: (name ++ (attributesText doubleQuoted [("class".toList,c)] ++
      '>' :: (fs.flatten ++ endText name)))) (.element name [("class".toList,c)] xs) := by
  obtain ⟨ys,hreads,hkept⟩ := exists_reads_flatten hfs
  have hquote : Attributable doubleQuoted [("class".toList,c)] := by
    simp only [Attributable,List.forall_mem_singleton]
    exact ⟨by decide,quotes_plain hc.1 hc.2⟩
  have hnames : Nameable (Dictionary.keys [("class".toList,c)]) :=
    (by decide : Nameable ["class".toList])
  have hshow := shows_quoted hname hnames hquote hreads hkept
  rwa [hread] at hshow

/-- What stands in front of the items. -/
theorem listOpening_eq : "<div class=\"unit-footnotes\"><ol class=\"unit-footnotes-list\">".toList =
    '<' :: ("div".toList ++ (attributesText doubleQuoted [("class".toList,"unit-footnotes".toList)] ++
      ['>'])) ++ '<' :: ("ol".toList ++
        (attributesText doubleQuoted [("class".toList,"unit-footnotes-list".toList)] ++ ['>'])) := by
  decide

theorem acts_listOpening : ∃ f, Acts
    "<div class=\"unit-footnotes\"><ol class=\"unit-footnotes-list\">".toList f := by
  have hclass : ∀ c : Text, '"' ∉ c ∧ '&' ∉ c → Attributable doubleQuoted [("class".toList,c)] := by
    intro c hc
    simp only [Attributable,List.forall_mem_singleton]
    exact ⟨by decide,quotes_plain hc.1 hc.2⟩
  have hdiv := acts_openTag (isContainer_cons (by decide) : IsContainer "div".toList).element
    (hclass "unit-footnotes".toList (by decide)) rfl
  have hol := acts_openTag (isContainer_cons (by decide) : IsContainer "ol".toList).element
    (hclass "unit-footnotes-list".toList (by decide)) rfl
  rw [listOpening_eq]
  exact ⟨_,hdiv.append hol⟩

variable {notes : Dictionary Text} {ids : List Text}

/-- All items are written, with plain notes. -/
theorem exists_plain_items (hids : ∀ id ∈ ids, notes.hasKey id = true) (hne : ids ≠ []) (unit : Int) :
    ∃ fs, List.Forall₂ (IsWritten plainNote notes unit) ids fs ∧
      listMarkup plainNote notes unit ids =
        .ok ("<div class=\"unit-footnotes\"><ol class=\"unit-footnotes-list\">".toList ++
          fs.flatten ++ "</ol></div>".toList) :=
  exists_items hids hne Text.escapeContent unit

/-- Items whose ids can be read. -/
theorem forall₂_shows {fs : List Text} {xs : List Node} (hids : ∀ id ∈ ids, '"' ∉ id)
    (hfs : List.Forall₂ (IsWritten plainNote notes unit) ids fs)
    (h : itemsRead notes unit ids = .ok xs) : List.Forall₂ Shows fs xs := by
  refine forall₂_mapM ?_ ((List.forall₂_and_left _ _).mpr ⟨hids,hfs⟩).flip h
  rintro f id x ⟨hid,note,_,hnote,hcontent,rfl⟩ hx
  cases hcontent
  obtain ⟨read,hread,rfl⟩ := map_eq_ok_iff.mp hx
  rw [hnote]
  exact shows_item hid hread note

/-- Up to the first item whose id is refused, the list does no more than build a tree. -/
theorem parse_listMarkup_of_error (hids : ∀ id ∈ ids, notes.hasKey id = true ∧ '"' ∉ id) {e : Fault}
    (h : itemsRead notes unit ids = .error e) :
    ∃ list, listMarkup plainNote notes unit ids = .ok list ∧ Html.parse list = .error e := by
  have hquotes : ∀ id ∈ ids, '"' ∉ id := fun id hid => (hids id hid).2
  obtain ⟨before,id,behind,xs,rfl,hxs,hid⟩ := exists_first_of_mapM_error h
  obtain ⟨_,hfs,hlist⟩ := exists_plain_items (fun id hid => (hids id hid).1) (by simp) unit
  obtain ⟨fs,_,rfl,hbefore,hrest⟩ := exists_append_of_forall₂ hfs
  obtain ⟨_,gs,⟨note,_,-,hcontent,rfl⟩,-,rfl⟩ := List.forall₂_cons_left_iff.mp hrest
  cases hcontent
  have hshows := forall₂_shows (fun i hi => hquotes i (List.mem_append_left _ hi)) hbefore hxs
  obtain ⟨ys,hreads,-⟩ := exists_reads_flatten hshows
  obtain ⟨g,hopening⟩ := acts_listOpening
  have hne : itemMarkup unit id (Text.escapeContent note) ++ (gs.flatten ++ "</ol></div>".toList) ≠ [] := by
    rw [itemMarkup_eq]
    exact List.cons_ne_nil _ _
  have hparse := parse_of_refused (hopening.append hreads) hne
    (step_item unit (hquotes id (by simp)) (map_eq_error_iff.mp hid) note _ _)
  refine ⟨_,hlist,?_⟩
  rw [List.flatten_append,List.flatten_cons]
  simp only [List.append_assoc] at hparse ⊢
  exact hparse

/-- The list of some items, when their ids can be read. -/
theorem parse_listMarkup_of_ok (hids : ∀ id ∈ ids, notes.hasKey id = true ∧ '"' ∉ id) (hne : ids ≠ [])
    {xs : List Node} (h : itemsRead notes unit ids = .ok xs) :
    ∃ list, listMarkup plainNote notes unit ids = .ok list ∧ Html.parse list = .ok (listing xs) := by
  obtain ⟨fs,hfs,hlist⟩ := exists_plain_items (fun id hid => (hids id hid).1) hne unit
  have hitems := forall₂_shows (fun id hid => (hids id hid).2) hfs h
  have hol := shows_classed "ol".toList "unit-footnotes-list".toList
    (isContainer_cons (by decide)) (by decide) (by rfl) hitems
  have hdiv := shows_classed "div".toList "unit-footnotes".toList
    (isContainer_cons (by decide)) (by decide) (by rfl) (.cons hol .nil)
  have hclose : "</ol></div>".toList = endText "ol".toList ++ endText "div".toList := by decide
  have htext : "<div class=\"unit-footnotes\"><ol class=\"unit-footnotes-list\">".toList ++ fs.flatten ++
      "</ol></div>".toList = '<' :: ("div".toList ++
      (attributesText doubleQuoted [("class".toList,"unit-footnotes".toList)] ++ '>' ::
        (['<' :: ("ol".toList ++ (attributesText doubleQuoted
          [("class".toList,"unit-footnotes-list".toList)] ++
            '>' :: (fs.flatten ++ endText "ol".toList)))].flatten ++ endText "div".toList))) := by
    rw [listOpening_eq,hclose,List.flatten_singleton]
    simp only [List.append_assoc,List.cons_append,List.nil_append]
  have hnonempty : xs.isEmpty = false := by
    have hlength := hfs.length_eq.trans hitems.length_eq
    rw [← Bool.not_eq_true,List.isEmpty_iff,← List.length_eq_zero_iff,← hlength,List.length_eq_zero_iff]
    exact hne
  refine ⟨_,hlist,?_⟩
  rw [htext,hdiv.parse_eq,listing,hnonempty]
  rfl

/-- The list of notes is read item by item, under the ids as they are read. -/
theorem parse_listMarkup (hids : ∀ id ∈ ids, notes.hasKey id = true ∧ '"' ∉ id) (unit : Int) :
    ∃ list, listMarkup plainNote notes unit ids = .ok list ∧
      Html.parse list = (itemsRead notes unit ids).map listing := by
  by_cases hne : ids = []
  · subst hne
    exact ⟨[],rfl,rfl⟩
  cases h : itemsRead notes unit ids with
  | error e => exact parse_listMarkup_of_error hids h
  | ok xs => exact parse_listMarkup_of_ok hids hne h

/-- A link is read as it is written, whatever its id. -/
theorem parse_link (unit : Int) (id : Text) :
    Html.parse (Html.markup [link unit id]) = .ok [link unit id] := by
  have hsup : IsContainer "sup".toList := isContainer_cons (by decide)
  have hclass : Nameable (Dictionary.keys [("class".toList,"footnote-ref".toList)]) := by decide
  have hattrs : Nameable (Dictionary.keys [("href".toList,'#' :: noteAnchor unit id),
      ("id".toList,referenceAnchor unit id)]) := (by decide : Nameable ["href".toList,"id".toList])
  have hlegible : LegibleAll [link unit id] :=
    ⟨legible_container hsup hclass ⟨legible_container isContainer_link hattrs ⟨trivial,trivial⟩,trivial⟩,
      trivial⟩
  have hprinted : Node.printedAll [link unit id] = [link unit id] := by rfl
  have hreads := reads_nodes hlegible
  rw [hprinted] at hreads
  have hquiet : IsQuiet ["a".toList,"sup".toList] :=
    isContainer_link.isQuiet_cons (hsup.isQuiet_cons ⟨rfl,rfl⟩)
  have htext : Builder.squeeze ('[' :: id ++ [']']) = '[' :: id ++ [']'] :=
    BeginsVisibly.squeeze_eq ⟨_,_,rfl,rfl⟩
  rw [Html.markup,parse_of_reads hreads,link,rereadAll_container hsup hclass (by rfl),
    rereadAll_container isContainer_link hattrs (by rfl),rereadAll_text hquiet htext]
  rfl

/-- The tree of a list shows its items. -/
theorem listing_injective : Function.Injective listing := by
  intro xs ys h
  unfold listing at h
  split at h <;> split at h
  · simp_all
  · cases h
  · cases h
  · simpa using h

/-- The items are those of the ids exactly when every id is read as it is. -/
theorem itemsRead_eq_items_iff :
    itemsRead notes unit ids = .ok (items notes unit ids) ↔ ∀ id ∈ ids, unescape id = .ok id := by
  have hitem : ∀ id, (unescape id).map (fun read => item unit read ((notes.find? id).getD [])) =
      .ok (item unit id ((notes.find? id).getD [])) ↔ unescape id = .ok id := by
    intro id
    rw [map_eq_ok_iff]
    refine ⟨fun ⟨read,hread,h⟩ => ?_,fun h => ⟨id,h,rfl⟩⟩
    obtain ⟨-,hattrs,-⟩ := Node.element.inj h
    obtain ⟨hfirst,-⟩ := List.cons_eq_cons.mp hattrs
    rw [hread,noteAnchor_injective unit (Prod.mk.inj hfirst).2]
  unfold itemsRead items
  induction ids with
  | nil => simp [pure,Except.pure]
  | cons id ids ih =>
    rw [List.mapM_cons,List.map_cons,List.forall_mem_cons,← hitem id,bind_eq_ok_iff]
    constructor
    · rintro ⟨x,hx,h⟩
      obtain ⟨xs,hxs,h⟩ := bind_eq_ok_iff.mp h
      obtain ⟨rfl,rfl⟩ := List.cons_eq_cons.mp (Except.ok.inj h)
      exact ⟨hx,ih.mp hxs⟩
    · rintro ⟨hx,hids⟩
      exact ⟨_,hx,bind_eq_ok_iff.mpr ⟨_,ih.mpr hids,rfl⟩⟩

end Reading

/-- The list of notes is read as one item for each id, with its anchor, its note and a link back, and nothing
else, under the ids that are read between quotes; it is refused when one of these is. They are the ids of
the links exactly when they hold no reference. -/
theorem parse_listMarkup_iff (notes : Dictionary Text) (unit : Int) (ids : List Text)
    (hids : ∀ id ∈ ids, notes.hasKey id = true ∧ '"' ∉ id) :
    (∀ id, Html.parse (Html.markup [link unit id]) = .ok [link unit id]) ∧
    ∃ list, listMarkup plainNote notes unit ids = .ok list ∧
      Html.parse list = (itemsRead notes unit ids).map listing ∧
      (Html.parse list = .ok (listing (items notes unit ids)) ↔ ∀ id ∈ ids, unescape id = .ok id) := by
  obtain ⟨list,hlist,hparse⟩ := parse_listMarkup hids unit
  refine ⟨parse_link unit,list,hlist,hparse,?_⟩
  rw [hparse,← itemsRead_eq_items_iff,map_eq_ok_iff]
  exact ⟨fun ⟨xs,hxs,h⟩ => listing_injective h ▸ hxs,fun h => ⟨_,h,rfl⟩⟩

/-- An id with signs of markup that stand for themselves between quotes, and one that is a reference. -/
theorem parse_listMarkup_iff_signs :
    let notes : Dictionary Text := [("1 < 2".toList,"<b>".toList),("R&D".toList,[]),("&amp;".toList,['n'])]
    let ids := ["R&D".toList,"1 < 2".toList]
    (∃ list, listMarkup plainNote notes (-1) ids = .ok list ∧
      Html.parse list = .ok (listing (items notes (-1) ids))) ∧
    ∃ list, listMarkup plainNote notes 4 ["&amp;".toList] = .ok list ∧
      Html.parse list ≠ .ok (listing (items notes 4 ["&amp;".toList])) := by
  intro notes ids
  obtain ⟨-,list,hlist,-,hread⟩ := parse_listMarkup_iff notes (-1) ids (by decide)
  obtain ⟨-,other,hother,-,hreads⟩ := parse_listMarkup_iff notes 4 ["&amp;".toList] (by decide)
  refine ⟨⟨list,hlist,hread.mpr (by decide)⟩,other,hother,fun h => ?_⟩
  exact absurd (hreads.mp h) (by decide)

/-- An id with a quote is cut off there, and what follows makes an attribute of its own. -/
theorem not_parse_listMarkup : ¬∀ (notes : Dictionary Text) (unit : Int) (ids : List Text),
    (∀ id ∈ ids, notes.hasKey id = true ∧ id ≠ [] ∧ ']' ∉ id ∧ '\n' ∉ id) →
    ∃ list, listMarkup plainNote notes unit ids = .ok list ∧
      Html.parse list = .ok (listing (items notes unit ids)) := by
  intro h
  obtain ⟨list,hlist,hparse⟩ := h [("a\"b".toList,['n'])] 0 ["a\"b".toList] (by decide)
  have hread : (listMarkup plainNote [("a\"b".toList,['n'])] 0
      ["a\"b".toList] >>= Html.parse).toOption.map Node.idValuesAll = some ["fn-def-0-a".toList] := by
    decide +kernel
  rw [hlist] at hread
  change (Html.parse list).toOption.map _ = _ at hread
  rw [hparse] at hread
  exact absurd hread (by decide)

end Footnote
end Longform
