import Mathlib.Data.List.Forall2
import Longform.Footnote.Unit
import Longform.Proofs.Dictionary
import Longform.Proofs.Footnote.Linking
import Longform.Proofs.Html.StartTag
import Longform.Proofs.Outcome

/-! Notes of a unit. What a unit refers to, what is linked in it and what is listed below it are the
same notes, and links and list point to each other; no two units share an anchor. -/
namespace Longform
namespace Footnote
open Html

theorem firsts_eq_eraseDups (seen ids : List Text) :
    firsts seen ids = (ids.filter fun id => !Text.isOneOf id seen).eraseDups := by
  induction ids generalizing seen with
  | nil => rfl
  | cons id ids ih =>
    rw [firsts]
    cases h : Text.isOneOf id seen with
    | true => simpa [h] using ih seen
    | false =>
      have hfilter : (ids.filter fun j => !Text.isOneOf j (id::seen)) =
          (ids.filter fun j => !Text.isOneOf j seen).filter fun j => !j == id := by
        rw [List.filter_filter]
        refine List.filter_congr fun j _ => ?_
        by_cases hj : j = id
        · subst hj
          simp [Text.isOneOf]
        · simp [Text.isOneOf,hj,Ne.symm hj]
      rw [if_neg Bool.false_ne_true,ih,hfilter]
      simp [h,List.eraseDups_cons]

/-- An id that stands for itself in markup. -/
def Quotable (id : Text) : Prop := '"' ∉ id ∧ '&' ∉ id ∧ '<' ∉ id ∧ '>' ∉ id

instance (id : Text) : Decidable (Quotable id) := inferInstanceAs (Decidable (_ ∧ _))

/-! Anchors. -/

theorem isDigit_of_mem_ofInt {unit : Nat} {c : Char} (h : c ∈ Text.ofInt unit) : c.isDigit = true :=
  Nat.isDigit_of_mem_toDigits (by decide) (by decide) h

theorem not_mem_ofInt {unit : Nat} {c : Char} (h : c.isDigit = false) : c ∉ Text.ofInt unit := fun hc =>
  absurd (isDigit_of_mem_ofInt hc) (by simp [h])

theorem ofInt_inj {m n : Nat} (h : Text.ofInt m = Text.ofInt n) : m = n := by
  have hdigits : Nat.toDigits 10 m = Nat.toDigits 10 n := h
  calc
    m = Nat.ofDigitChars 10 (Nat.toDigits 10 m) 0 := Nat.ofDigitChars_ten_toDigits.symm
    _ = Nat.ofDigitChars 10 (Nat.toDigits 10 n) 0 := by rw [hdigits]
    _ = n := Nat.ofDigitChars_ten_toDigits

/-- The number of a unit can be read off its anchors. -/
theorem eq_of_numbered {m n : Nat} {id id' : Text}
    (h : Text.ofInt m ++ '-' :: id = Text.ofInt n ++ '-' :: id') : m = n := by
  have hnumber : ∀ (k : Nat) (s : Text),
      (Text.ofInt k ++ '-' :: s).takeWhile (· ≠ '-') = Text.ofInt k := fun k s => by
    refine (Text.takeWhile_append_stop (fun c hc => ?_) (by simp)).1
    simpa using fun he : c = '-' => not_mem_ofInt (c := '-') rfl (he ▸ hc)
  apply ofInt_inj
  rw [← hnumber m id,h,hnumber]

/-- The anchors of an id in a unit: that of the reference and that of the note. -/
def anchors (unit : Int) (id : Text) : List Text := [referenceAnchor unit id,noteAnchor unit id]

theorem anchors_disjoint {m n : Nat} (h : m ≠ n) (id id' : Text) :
    (anchors m id).Disjoint (anchors n id') := by
  have hcancel : ∀ p : Text, p ++ Text.ofInt m ++ '-' :: id ≠ p ++ Text.ofInt n ++ '-' :: id' := by
    intro p he
    rw [List.append_assoc,List.append_assoc] at he
    exact h (eq_of_numbered (List.append_cancel_left he))
  intro a ha hb
  simp only [anchors,List.mem_cons,List.not_mem_nil,or_false] at ha hb
  unfold referenceAnchor noteAnchor at ha hb
  rcases ha with rfl | rfl <;> rcases hb with hb | hb
  · exact hcancel _ hb
  · simp at hb
  · simp at hb
  · exact hcancel _ hb

theorem not_mem_anchor {unit : Nat} {id p : Text} {c : Char} (hp : c ∉ p) (hid : c ∉ id)
    (hdigit : c.isDigit = false) (hne : c ≠ '-') : c ∉ p ++ Text.ofInt unit ++ '-' :: id := by
  simp [hp,hid,hne,not_mem_ofInt hdigit]

/-! The list of notes. -/

/-- An item of the list of notes: an element that bears the anchor of the note, with the note and a
link back to the reference in it. -/
def IsItem (render : Text → Text) (notes : Dictionary Text) (unit : Int) (id item : Text) : Prop :=
  ∃ note li back, notes.find? id = some note ∧
    item = li ++ render note ++ ' ' :: back ++ "↩</a></li>".toList ∧
    IsStartTag li "li".toList [("id".toList,noteAnchor unit id)] ∧
    IsStartTag back "a".toList [("href".toList,'#' :: referenceAnchor unit id),
      ("class".toList,"footnote-backref".toList)]

theorem itemMarkup_eq (unit : Int) (id content : Text) :
    itemMarkup unit id content =
      '<' :: "li".toList ++ (attributesText doubleQuoted [("id".toList,noteAnchor unit id)] ++ ['>']) ++
        content ++ ' ' :: ('<' :: "a".toList ++ (attributesText doubleQuoted
          [("href".toList,'#' :: referenceAnchor unit id),
            ("class".toList,"footnote-backref".toList)] ++ ['>'])) ++ "↩</a></li>".toList := by
  have hopen : "<li id=\"".toList =
      '<' :: ("li".toList ++ ' ' :: ("id".toList ++ ['=','"'])) := by decide
  have hlink : " <a href=\"#".toList =
      ' ' :: '<' :: ("a".toList ++ ' ' :: ("href".toList ++ ['=','"','#'])) := by decide
  have hrest : "\" class=\"footnote-backref\">↩</a></li>".toList = '"' :: ' ' :: ("class".toList ++
      '=' :: '"' :: ("footnote-backref".toList ++ '"' :: '>' :: "↩</a></li>".toList)) := by decide
  have hclose : "\">".toList = ['"','>'] := by decide
  unfold itemMarkup
  simp only [hopen,hlink,hrest,hclose,attributesText,doubleQuoted,List.flatMap_cons,List.flatMap_nil,
    List.append_assoc,List.cons_append,List.nil_append]

/-- An anchor, or what stands for one, can be put in quotes when its id can. -/
theorem quotes_anchor {p id : Text} (hp : '"' ∉ p ∧ '&' ∉ p) (hid : Quotable id) (unit : Nat) :
    Quotes (doubleQuoted (p ++ Text.ofInt unit ++ '-' :: id)) (p ++ Text.ofInt unit ++ '-' :: id) :=
  quotes_plain (not_mem_anchor hp.1 hid.1 rfl (by decide))
    (not_mem_anchor hp.2 hid.2.1 rfl (by decide))

theorem attributable_item {id : Text} (hid : Quotable id) (unit : Nat) :
    Attributable doubleQuoted [("id".toList,noteAnchor unit id)] := by
  simp only [Attributable,List.forall_mem_singleton]
  exact ⟨by decide,
    quotes_anchor (p:="fn-def-".toList) (by decide) hid unit⟩

theorem attributable_backLink {id : Text} (hid : Quotable id) (unit : Nat) :
    Attributable doubleQuoted [("href".toList,'#' :: referenceAnchor unit id),
      ("class".toList,"footnote-backref".toList)] := by
  simp only [Attributable,List.forall_mem_cons]
  refine ⟨⟨by decide,?_⟩,⟨by decide,quotes_plain (by decide) (by decide)⟩,by simp⟩
  exact quotes_anchor (p := '#' :: "fn-ref-".toList) (by decide) hid unit

theorem isItem_itemMarkup {notes : Dictionary Text} {id note : Text} (hid : Quotable id)
    (hnote : notes.find? id = some note) (render : Text → Text) (unit : Nat) :
    IsItem render notes unit id (itemMarkup unit id (render note)) := by
  have hlower : Text.lower "li".toList = "li".toList ∧ Text.lower "a".toList = "a".toList ∧
      Text.lower "id".toList = "id".toList ∧ Text.lower "href".toList = "href".toList ∧
      Text.lower "class".toList = "class".toList := by decide
  obtain ⟨hnli,hna,hnid,hnhref,hnclass⟩ := hlower
  have hone : ∀ x : Text, Dictionary.ofEntries [("id".toList,x)] = [("id".toList,x)] := fun _ => rfl
  have htwo : ∀ x y : Text, Dictionary.ofEntries [("href".toList,x),("class".toList,y)] =
      [("href".toList,x),("class".toList,y)] := fun x y => by
    have hne : "href".toList ≠ "class".toList := by decide
    rw [Dictionary.ofEntries,Dictionary.merge,List.foldl_cons,List.foldl_cons,List.foldl_nil]
    simp only [Dictionary.set,if_neg hne]
  have hli : IsTagName "li".toList := by decide
  have ha : IsTagName "a".toList := by decide
  have hitem := isStartTag_text hli (attributable_item hid unit)
  have hback := isStartTag_text ha (attributable_backLink hid unit)
  rw [List.map_singleton,hnli,hnid,hone] at hitem
  rw [List.map_cons,List.map_singleton,hna,hnhref,hnclass,htwo] at hback
  exact ⟨note,_,_,hnote,itemMarkup_eq unit id (render note),hitem,hback⟩

/-- What is written for a note in the list. -/
def IsWritten (render : Text → Except Fault Text) (notes : Dictionary Text) (unit : Int)
    (id item : Text) : Prop :=
  ∃ note content, notes.find? id = some note ∧ render note = .ok content ∧
    item = itemMarkup unit id content

/-- The list of known notes, item by item. It is not written only when one of them is refused. -/
theorem listMarkup_cases {notes : Dictionary Text} {ids : List Text}
    (hids : ∀ id ∈ ids, notes.hasKey id = true) (hne : ids ≠ []) (render : Text → Except Fault Text)
    (unit : Int) :
    (∃ items, List.Forall₂ (IsWritten render notes unit) ids items ∧
      listMarkup render notes unit ids =
        .ok ("<div class=\"unit-footnotes\"><ol class=\"unit-footnotes-list\">".toList ++
          items.flatten ++ "</ol></div>".toList)) ∨
    ∃ id ∈ ids, ∃ note e, notes.find? id = some note ∧ render note = .error e ∧
      listMarkup render notes unit ids = .error e := by
  have hknown : ∀ id ∈ ids, ∃ note, notes.find? id = some note ∧
      itemOf render notes unit id = (render note).map (itemMarkup unit id) := fun id hid => by
    obtain ⟨note,hnote⟩ := Option.isSome_iff_exists.mp (hids id hid)
    exact ⟨note,hnote,by rw [itemOf,hnote]⟩
  rw [listMarkup,if_neg (by simpa using hne)]
  cases hitems : ids.mapM (itemOf render notes unit) with
  | error e =>
    obtain ⟨id,hid,he⟩ := exists_of_mapM_error hitems
    obtain ⟨note,hnote,hitem⟩ := hknown id hid
    rw [hitem] at he
    exact .inr ⟨id,hid,note,e,hnote,map_eq_error_iff.mp he,rfl⟩
  | ok items =>
    have hsame : List.Forall₂ (fun i j => i = j ∧ j ∈ ids) ids ids :=
      List.forall₂_same.mpr fun id hid => ⟨rfl,hid⟩
    refine .inl ⟨items,forall₂_mapM ?_ hsame hitems,rfl⟩
    rintro id _ item ⟨rfl,hid⟩ hok
    obtain ⟨note,hnote,hitem⟩ := hknown id hid
    rw [hitem] at hok
    obtain ⟨content,hcontent,rfl⟩ := map_eq_ok_iff.mp hok
    exact ⟨note,content,hnote,hcontent,rfl⟩

/-- Where no note is refused, all items are written. -/
theorem exists_items {notes : Dictionary Text} {ids : List Text}
    (hids : ∀ id ∈ ids, notes.hasKey id = true) (hne : ids ≠ []) (render : Text → Text) (unit : Int) :
    ∃ items, List.Forall₂ (IsWritten (fun t => .ok (render t)) notes unit) ids items ∧
      listMarkup (fun t => .ok (render t)) notes unit ids =
        .ok ("<div class=\"unit-footnotes\"><ol class=\"unit-footnotes-list\">".toList ++
          items.flatten ++ "</ol></div>".toList) := by
  rcases listMarkup_cases hids hne (fun t => .ok (render t)) unit with h | ⟨_,_,_,_,_,he,_⟩
  · exact h
  · cases he

/-- The tree of a unit, its note ids and what became of it fit together. -/
structure Attached (render : Text → Text) (notes : Dictionary Text) (unit : Int) (fragment : Text)
    (ns : List Node) (u : Unit) : Prop where
  ids : u.ids = (cited notes.hasKey ns).eraseDups
  resolved : ∀ id, id ∈ u.ids ↔ id ∈ cited notes.hasKey ns
  unchanged : cited notes.hasKey ns = [] → u = ⟨fragment,[],[]⟩
  /-- One link for each reference, in order, and nothing else is changed. -/
  linked : cited notes.hasKey ns ≠ [] → ∃ sketch, Sketch.idsAll sketch = cited notes.hasKey ns ∧
    Node.signsAll (Sketch.fillAll written sketch) = Node.signsAll ns ∧
    u.html = Html.markup (Sketch.fillAll (link unit) sketch)
  /-- A link is raised, leads to its note, bears the anchor of the reference and shows the id. -/
  raised : ∀ id, link unit id = .element "sup".toList [("class".toList,"footnote-ref".toList)]
    [.element "a".toList [("href".toList,'#' :: noteAnchor unit id),
      ("id".toList,referenceAnchor unit id)] [.text .shown ('[' :: id ++ [']'])]]
  /-- One item for each note, in order. -/
  listed : cited notes.hasKey ns ≠ [] → ∃ items, List.Forall₂ (IsItem render notes unit) u.ids items ∧
    u.list = "<div class=\"unit-footnotes\"><ol class=\"unit-footnotes-list\">".toList ++
      items.flatten ++ "</ol></div>".toList

theorem hasKey_of_mem_cited {notes : Dictionary Text} {ns : List Node} {id : Text}
    (h : id ∈ cited notes.hasKey ns) : notes.hasKey id = true := by
  obtain ⟨⟨around,t⟩,-,hid⟩ := List.mem_flatMap.mp h
  simp only at hid
  split at hid
  · cases hid
  · exact (List.mem_filter.mp hid).2

theorem referenced_of_parse {notes : Dictionary Text} {fragment : Text} {ns : List Node}
    (hparse : Html.parse fragment = .ok ns) :
    referenced notes fragment = .ok (cited notes.hasKey ns).eraseDups := by
  have hfirsts := firsts_eq_eraseDups [] (cited notes.hasKey ns)
  simp only [Text.isOneOf,List.any_nil,Bool.not_false,List.filter_true] at hfirsts
  rw [referenced,hparse]
  simp only [Except.map,occurrencesAll_eq_cited,hfirsts]

theorem hasKey_of_mem_eraseDups {notes : Dictionary Text} {ns : List Node} :
    ∀ id ∈ (cited notes.hasKey ns).eraseDups, notes.hasKey id = true := fun _ hid =>
  hasKey_of_mem_cited (List.mem_eraseDups.mp hid)

theorem eraseDups_ne_nil {ids : List Text} (h : ids ≠ []) : ids.eraseDups ≠ [] := by
  obtain ⟨id,rest,rfl⟩ := List.exists_cons_of_ne_nil h
  rw [List.eraseDups_cons]
  exact List.cons_ne_nil _ _

/-- What becomes of a fragment that can be read. -/
theorem attach_of_parse {fragment : Text} {ns : List Node} (hparse : Html.parse fragment = .ok ns)
    (render : Text → Except Fault Text) (notes : Dictionary Text) (unit : Int) :
    attach render notes unit fragment =
      if cited notes.hasKey ns = [] then .ok ⟨fragment,[],[]⟩
      else (listMarkup render notes unit (cited notes.hasKey ns).eraseDups).map fun list =>
        ⟨Html.markup (linkAll notes.hasKey unit ns),(cited notes.hasKey ns).eraseDups,list⟩ := by
  rw [attach,referenced_of_parse hparse]
  by_cases hnone : cited notes.hasKey ns = []
  · rw [if_pos hnone,hnone]
    rfl
  · have hnonempty : (cited notes.hasKey ns).eraseDups.isEmpty = false := by
      simpa using eraseDups_ne_nil hnone
    rw [if_neg hnone]
    simp only [hnonempty,Bool.false_eq_true,if_false,linked,hparse]
    cases listMarkup render notes unit (cited notes.hasKey ns).eraseDups <;> rfl

/-- A note that a fragment refers to and that is refused. -/
def Unwritten (render : Text → Except Fault Text) (notes : Dictionary Text) (fragment : Text)
    (e : Fault) : Prop :=
  ∃ ns id note, Html.parse fragment = .ok ns ∧ id ∈ cited notes.hasKey ns ∧
    notes.find? id = some note ∧ render note = .error e

theorem attach_error {render : Text → Except Fault Text} {notes : Dictionary Text} {unit : Int}
    {fragment : Text} {e : Fault} (h : attach render notes unit fragment = .error e) :
    Html.parse fragment = .error e ∨ Unwritten render notes fragment e := by
  rcases hparse : Html.parse fragment with e' | ns
  · rw [attach,referenced,hparse] at h
    cases h
    exact .inl rfl
  rw [attach_of_parse hparse] at h
  split at h
  · cases h
  rename_i hsome
  have hlist := map_eq_error_iff.mp h
  rcases listMarkup_cases hasKey_of_mem_eraseDups (eraseDups_ne_nil hsome) render unit with
    ⟨_,_,hok⟩ | ⟨id,hid,note,e',hnote,hrender,herror⟩
  · cases hok.symm.trans hlist
  · cases herror.symm.trans hlist
    exact .inr ⟨ns,id,note,hparse,List.mem_eraseDups.mp hid,hnote,hrender⟩

theorem attached {notes : Dictionary Text} (hids : ∀ id ∈ notes.keys, Quotable id)
    (render : Text → Text) (unit : Nat) {fragment : Text} {ns : List Node}
    (hparse : Html.parse fragment = .ok ns) :
    ∃ u, attach (fun t => .ok (render t)) notes unit fragment = .ok u ∧
      Attached render notes unit fragment ns u := by
  have hmem : ∀ id, id ∈ (cited notes.hasKey ns).eraseDups ↔ id ∈ cited notes.hasKey ns := fun id =>
    List.mem_eraseDups
  rw [attach_of_parse hparse]
  by_cases hnone : cited notes.hasKey ns = []
  · refine ⟨_,if_pos hnone,?_⟩
    exact ⟨by rw [hnone]; rfl,by simp [hnone],fun _ => rfl,fun h => absurd hnone h,
      fun _ => rfl,fun h => absurd hnone h⟩
  · have hne := eraseDups_ne_nil hnone
    obtain ⟨items,hitems,hlist⟩ := exists_items hasKey_of_mem_eraseDups hne render unit
    have hquotable : ∀ id ∈ (cited notes.hasKey ns).eraseDups, Quotable id := fun id hid =>
      hids id (Dictionary.mem_keys_of_hasKey (hasKey_of_mem_eraseDups id hid))
    have hall : List.Forall₂ (IsItem render notes unit) (cited notes.hasKey ns).eraseDups items := by
      refine ((List.forall₂_and_left _ _).mpr ⟨hquotable,hitems⟩).imp ?_
      rintro id item ⟨hid,note,_,hnote,hcontent,rfl⟩
      cases hcontent
      exact isItem_itemMarkup hid hnote render unit
    rw [if_neg hnone,hlist]
    refine ⟨_,rfl,rfl,hmem,fun h => absurd h hnone,fun _ => ?_,fun _ => rfl,fun _ => ⟨items,hall,rfl⟩⟩
    exact ⟨sketchAll notes.hasKey ns,(idsAll_sketchAll _ ns).trans (occurrencesAll_eq_cited _ ns),
      signsAll_sketchAll _ ns,by rw [fillAll_sketchAll]⟩

/-- Whatever a fragment refers to, its links, its list of notes and their links back agree; a fragment
without references stays as it is, only one that cannot be read is refused, and the anchors of two
units have nothing in common. -/
theorem attach_consistent (render : Text → Text) (notes : Dictionary Text)
    (hids : ∀ id ∈ notes.keys, Quotable id) (unit : Nat) (fragment : Text) :
    (∀ e, Html.parse fragment = .error e →
      attach (fun t => .ok (render t)) notes unit fragment = .error e) ∧
    (∀ ns, Html.parse fragment = .ok ns →
      ∃ u, attach (fun t => .ok (render t)) notes unit fragment = .ok u ∧
        Attached render notes unit fragment ns u) ∧
    ∀ other : Nat, other ≠ unit → ∀ id id', (anchors other id).Disjoint (anchors unit id') := by
  refine ⟨fun e he => ?_,fun ns hns => attached hids render unit hns,
    fun other hne id id' => anchors_disjoint hne id id'⟩
  rw [attach,referenced,he]
  rfl

/-- Notes referred to twice, not at all, in code, and one that is not known. -/
theorem attach_consistent_mixed :
    let notes : Dictionary Text := [("1".toList,"one".toList),("2".toList,"two".toList),
      ("b c".toList,"three".toList)]
    let fragment := "<p>[^b c][^x]<code>[^2]</code> [^1][^b c]</p>".toList
    (∀ id ∈ notes.keys, Quotable id) ∧
      ∃ u ns, attach .ok notes 7 fragment = .ok u ∧ Attached id notes 7 fragment ns u ∧
        cited notes.hasKey ns = ["b c".toList,"1".toList,"b c".toList] ∧
        u.ids = ["b c".toList,"1".toList] := by
  intro notes fragment
  have hids : ∀ id ∈ notes.keys, Quotable id := by decide
  have hread : Html.parse fragment = .ok [.element "p".toList [] [
      .text .shown "[^b c][^x]".toList,.element "code".toList [] [.text .shown "[^2]".toList],
      .text .shown " [^1][^b c]".toList]] := by rfl
  obtain ⟨u,hu,hattached⟩ := (attach_consistent id notes hids 7 fragment).2.1 _ hread
  have hcited := (by decide : cited notes.hasKey [.element "p".toList [] [
      .text .shown "[^b c][^x]".toList,.element "code".toList [] [.text .shown "[^2]".toList],
      .text .shown " [^1][^b c]".toList]] = ["b c".toList,"1".toList,"b c".toList])
  refine ⟨hids,u,_,hu,hattached,hcited,?_⟩
  rw [hattached.ids,hcited]
  decide

end Footnote
end Longform
