import Mathlib.Data.List.Nodup
import Longform.Proofs.Footnote.Attachment

/-! The anchors of a unit: those of the links in it and those of the items in its list. Items have anchors
of their own, while all links to one note have the same. -/
namespace Longform

namespace Html

mutual
/-- The values of the `id` attributes in a node, in order. -/
def Node.idValues : Node → List Text
  | .text _ _ => []
  | .element _ attrs children =>
    (attrs.filter fun a => a.1 = "id".toList).map (·.2) ++ Node.idValuesAll children
def Node.idValuesAll : List Node → List Text
  | [] => []
  | n::ns => Node.idValues n ++ Node.idValuesAll ns
end

end Html

namespace Footnote
open Html

/-- An id can be read off what begins in a fixed way. -/
theorem numbered_injective (p : Text) (unit : Int) :
    Function.Injective fun id : Text => p ++ Text.ofInt unit ++ '-' :: id := by
  intro id id' h
  exact (List.cons_eq_cons.mp (List.append_cancel_left h)).2

theorem referenceAnchor_injective (unit : Int) : Function.Injective (referenceAnchor unit) :=
  numbered_injective _ unit

theorem noteAnchor_injective (unit : Int) : Function.Injective (noteAnchor unit) :=
  numbered_injective _ unit

theorem referenceAnchor_ne_noteAnchor (unit unit' : Int) (id id' : Text) :
    referenceAnchor unit id ≠ noteAnchor unit' id' := by
  intro h
  have hlength : "fn-ref-".toList.length = "fn-def-".toList.length := by decide
  unfold referenceAnchor noteAnchor at h
  rw [List.append_assoc,List.append_assoc] at h
  exact absurd (List.append_inj_left h hlength) (by decide)

/-- A link bears the anchor of its reference and no other. -/
theorem idValues_link (unit : Int) (id : Text) :
    (link unit id).idValues = [referenceAnchor unit id] := by
  have hclass : ("class".toList = "id".toList) = False := eq_false (by decide)
  have hhref : ("href".toList = "id".toList) = False := eq_false (by decide)
  simp only [link,Node.idValues,Node.idValuesAll,List.filter_cons,List.filter_nil,hclass,hhref,
    decide_false,decide_true,Bool.false_eq_true,if_false,if_true,List.map_cons,List.map_nil,
    List.append_nil,List.nil_append]

/-- An item bears an anchor when it begins with a start tag that has this `id` and nothing else. -/
def Bears (item anchor : Text) : Prop :=
  ∃ tag rest, item = tag ++ rest ∧ IsStartTag tag "li".toList [("id".toList,anchor)]

theorem IsItem.bears {render : Text → Text} {notes : Dictionary Text} {unit : Int} {id item : Text}
    (h : IsItem render notes unit id item) : Bears item (noteAnchor unit id) := by
  obtain ⟨note,tag,back,-,rfl,htag,-⟩ := h
  exact ⟨tag,render note ++ ' ' :: back ++ "↩</a></li>".toList,by simp,htag⟩

/-- A unit with the anchors of its links and of its items. The links are what fills the open places of a
sketch of the tree. -/
structure Anchored (ns : List Node) (unit : Int) (u : Unit) (links items : List Text) : Prop where
  linked : ∃ sketch, Node.signsAll (Sketch.fillAll written sketch) = Node.signsAll ns ∧
    u.html = Html.markup (Sketch.fillAll (link unit) sketch) ∧
    links = (Sketch.idsAll sketch).flatMap fun id => (link unit id).idValues
  listed : ∃ texts, List.Forall₂ Bears texts items ∧
    u.list = "<div class=\"unit-footnotes\"><ol class=\"unit-footnotes-list\">".toList ++
      texts.flatten ++ "</ol></div>".toList

section Anchored

variable {notes : Dictionary Text} {ns : List Node} {unit : Nat} {fragment : Text} {u : Unit}
  {render : Text → Text}

theorem Attached.anchored (h : Attached render notes unit fragment ns u)
    (hcited : cited notes.hasKey ns ≠ []) :
    Anchored ns unit u ((cited notes.hasKey ns).map (referenceAnchor unit))
      (u.ids.map (noteAnchor unit)) := by
  obtain ⟨sketch,hids,hsigns,hhtml⟩ := h.linked hcited
  obtain ⟨texts,htexts,hlist⟩ := h.listed hcited
  refine ⟨⟨sketch,hsigns,hhtml,?_⟩,texts,?_,hlist⟩
  · rw [hids]
    simp only [idValues_link,← List.map_eq_flatMap]
  · exact List.forall₂_map_right_iff.mpr (htexts.flip.imp fun _ _ hitem => IsItem.bears hitem)

theorem disjoint_anchors (unit : Int) (ids ids' : List Text) :
    (ids.map (referenceAnchor unit)).Disjoint (ids'.map (noteAnchor unit)) := by
  intro a ha ha'
  obtain ⟨id,-,rfl⟩ := List.mem_map.mp ha
  obtain ⟨id',-,hid'⟩ := List.mem_map.mp ha'
  exact referenceAnchor_ne_noteAnchor unit unit id id' hid'.symm

theorem nodup_eraseDups (ids : List Text) : ids.eraseDups.Nodup := by
  match ids with
  | [] => exact List.nodup_nil
  | id::ids =>
    rw [List.eraseDups_cons]
    refine List.nodup_cons.mpr ⟨fun hmem => ?_,nodup_eraseDups _⟩
    simpa using (List.mem_filter.mp (List.mem_eraseDups.mp hmem)).2
  termination_by ids.length
  decreasing_by exact Nat.lt_succ_of_le (List.length_filter_le _ _)

end Anchored

/-- The anchors of a unit are those of its links, one for each reference, and of its items, one for each
note. Those of items are distinct from each other and from all others; all together are distinct exactly
when the unit refers to no note twice. -/
theorem attach_anchors_nodup_iff (render : Text → Text) (notes : Dictionary Text)
    (hids : ∀ id ∈ notes.keys, Quotable id) (unit : Nat) (fragment : Text) (ns : List Node)
    (hparse : Html.parse fragment = .ok ns) :
    ∃ u, attach (fun t => .ok (render t)) notes unit fragment = .ok u ∧
      (cited notes.hasKey ns = [] → u = ⟨fragment,[],[]⟩) ∧
      (cited notes.hasKey ns ≠ [] → ∃ links items, Anchored ns unit u links items ∧
        links = (cited notes.hasKey ns).map (referenceAnchor unit) ∧
        items = u.ids.map (noteAnchor unit) ∧ items.Nodup ∧ links.Disjoint items ∧
        ((links ++ items).Nodup ↔ (cited notes.hasKey ns).Nodup)) := by
  obtain ⟨u,hu,hattached⟩ := attached hids render unit hparse
  have hitems : (u.ids.map (noteAnchor unit)).Nodup :=
    (hattached.ids ▸ nodup_eraseDups _).map (noteAnchor_injective unit)
  have hapart := disjoint_anchors unit (cited notes.hasKey ns) u.ids
  refine ⟨u,hu,hattached.unchanged,fun hcited =>
    ⟨_,_,hattached.anchored hcited,rfl,rfl,hitems,hapart,?_⟩⟩
  rw [List.nodup_append',List.nodup_map_iff (referenceAnchor_injective unit)]
  exact and_iff_left ⟨hitems,hapart⟩

/-- Two notes, the second of them first. -/
theorem attach_anchors_nodup_iff_two :
    let notes : Dictionary Text := [("1".toList,"one".toList),("2".toList,"two".toList)]
    let fragment := "<p>a[^2] b[^1]</p>".toList
    let ns : List Node := [.element "p".toList [] [.text .shown "a[^2] b[^1]".toList]]
    (∀ id ∈ notes.keys, Quotable id) ∧ Html.parse fragment = .ok ns ∧
      ∃ u links items, attach .ok notes 3 fragment = .ok u ∧ Anchored ns 3 u links items ∧
        (links ++ items).Nodup := by
  intro notes fragment ns
  have hids : ∀ id ∈ notes.keys, Quotable id := by decide
  have hparse : Html.parse fragment = .ok ns := by rfl
  have hcited : cited notes.hasKey ns = ["2".toList,"1".toList] := by decide
  obtain ⟨u,hu,-,hall⟩ := attach_anchors_nodup_iff id notes hids 3 fragment ns hparse
  obtain ⟨links,items,hanchored,-,-,-,-,hnodup⟩ := hall (by rw [hcited]; exact List.cons_ne_nil _ _)
  exact ⟨hids,hparse,u,links,items,hu,hanchored,hnodup.mpr (by rw [hcited]; decide)⟩

/-- A note that is referred to twice has two links with one anchor. -/
theorem not_nodup_anchors :
    let notes : Dictionary Text := [("1".toList,"n".toList)]
    let fragment := "<p>a[^1] b[^1]</p>".toList
    let ns : List Node := [.element "p".toList [] [.text .shown "a[^1] b[^1]".toList]]
    Html.parse fragment = .ok ns ∧
      ∃ u links items, attach .ok notes 0 fragment = .ok u ∧ Anchored ns 0 u links items ∧
        links = ["fn-ref-0-1".toList,"fn-ref-0-1".toList] ∧ ¬(links ++ items).Nodup := by
  intro notes fragment ns
  have hparse : Html.parse fragment = .ok ns := by rfl
  have hids : ∀ id ∈ notes.keys, Quotable id := by decide
  have hcited : cited notes.hasKey ns = ["1".toList,"1".toList] := by decide
  obtain ⟨u,hu,hattached⟩ := attached hids id 0 hparse
  have hanchored := hattached.anchored (by rw [hcited]; exact List.cons_ne_nil _ _)
  rw [hcited] at hanchored
  have hlinks : ["1".toList,"1".toList].map (referenceAnchor (0 : Nat)) =
      ["fn-ref-0-1".toList,"fn-ref-0-1".toList] := by decide
  refine ⟨hparse,u,_,_,hu,hanchored,hlinks,?_⟩
  rw [hlinks]
  exact fun h => absurd (List.nodup_append'.mp h).1 (by decide)

end Footnote
end Longform
