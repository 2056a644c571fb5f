import Longform.Proofs.Decimal.Whole
import Longform.Proofs.Html.SoundReader
import Longform.Proofs.Html.Writing
import Longform.Proofs.Network.Description
import Longform.Proofs.Network.Printing

/-! The markup of a block. It is read as one element with the nodes, the described edges and the edges of
the connections inside, each with its attributes and its description, exactly when the names of the
attributes allow it. All other text of the author stays what it is, wherever it stands. -/
namespace Longform
namespace Network

open Html Page

/-! The tree that a block should be. -/

def headingNode (level : Nat) (text : Text) : Node :=
  .element ('h' :: Text.ofNat level) [] [.text .shown text]

def paragraphNodes (ls : List Text) : List Node :=
  if ls.isEmpty then [] else [.element ['p'] [] [.text .shown (Text.join [' '] ls)]]

def headingNodes (l : Text) : List Node :=
  ((heading? (Text.trim l)).map fun h => headingNode h.1 h.2).toList

/-- The headings and paragraphs of a description; `paragraph` holds the lines of the paragraph at hand. -/
def descriptionFrom (paragraph : List Text) : List Text → List Node
  | [] => paragraphNodes paragraph
  | l::ls =>
    if Text.allBlank l then paragraphNodes paragraph ++ descriptionFrom [] ls
    else if isProse l then descriptionFrom (paragraph ++ [Text.trim l]) ls
    else paragraphNodes paragraph ++ (headingNodes l ++ descriptionFrom [] ls)

def Item.description (x : Item) : List Node := descriptionFrom [] (Text.lines x.content)

/-- The attributes that the connections give to a node. -/
def Block.own (b : Block) (x : Item) : Dictionary Text :=
  ((nodeAttributes b.connections).find? x.name).getD []

/-- The attributes of the node at a position. -/
def Block.attributes (b : Block) (x : Item) (n : Nat) : Dictionary Text :=
  ("id".toList,Text.ofNat n)::("name".toList,x.name)::b.own x

def Block.node (b : Block) (x : Item) (n : Nat) : Node :=
  .element "network-node".toList (asRead "network-node".toList (b.attributes x n))
    (onLines x.description)

def Item.edge (x : Item) : Node :=
  .element "network-edge".toList [("name".toList,x.name)] (onLines x.description)

/-- The attributes of an edge; an empty label is none. -/
def Edge.attributes (e : Edge) : Dictionary Text :=
  ("source".toList,e.source)::("target".toList,e.target)::
    (if (e.label.getD []).isEmpty then [] else [("label".toList,e.label.getD [])])

def Edge.node (e : Edge) : Node := .element "network-edge".toList e.attributes []

theorem isContainer_heading {level : Nat} (h : level ≤ 6) :
    IsContainer ('h' :: Text.ofNat level) := by
  apply isContainer_cons
  revert level
  decide

theorem isContainer_paragraph : IsContainer ['p'] := isContainer_cons (by decide)

theorem nameable_nil : Nameable [] := by decide

/-- An element of a description. -/
theorem shows_description {name t : Text} (hname : IsContainer name) (ht : BeginsVisibly t) :
    Shows ('<' :: name ++ '>' :: Text.escapeContent t ++ '<' :: '/' :: name ++ ['>'])
      (.element name [] [.text .shown t]) := by
  have h : Shows (elementText name [] (Text.escapeContent t))
      (.element name (asRead name []) (textNodes t)) :=
    shows_text hname nameable_nil fun _ => ht
  have hnone : asRead name [] = [] := rfl
  obtain ⟨c,r,rfl,-⟩ := ht
  rw [hnone] at h
  simpa [elementText,startText,endText,attributesText,textNodes] using h

theorem beginsVisibly_trim {l : Text} (h : Text.allBlank l = false) : BeginsVisibly (Text.trim l) := by
  cases ht : Text.trim l with
  | nil =>
    rw [Text.trim_eq_nil_iff] at ht
    rw [ht] at h
    cases h
  | cons c r => exact ⟨c,r,rfl,Text.isBlank_of_trim_eq_cons ht⟩

theorem beginsVisibly_join {l : Text} (h : BeginsVisibly l) (p : List Text) :
    BeginsVisibly (Text.join [' '] (l::p)) := by
  obtain ⟨c,r,rfl,hc⟩ := h
  cases p with
  | nil => exact ⟨c,r,rfl,hc⟩
  | cons k p => exact ⟨c,_,rfl,hc⟩

theorem forall₂_paragraph {p : List Text} (hp : ∀ l ∈ p, BeginsVisibly l) :
    List.Forall₂ Shows (paragraphMarkup p) (paragraphNodes p) := by
  cases p with
  | nil => exact .nil
  | cons l p =>
    refine .cons ?_ .nil
    have h := shows_description isContainer_paragraph (beginsVisibly_join (hp l List.mem_cons_self) p)
    simpa using h

theorem heading?_eq_some {l t : Text} {level : Nat} (h : heading? l = some (level,t)) :
    level ≤ 6 ∧ BeginsVisibly t := by
  have hmarks : ((l.takeWhile (· = '#')).take 6).length ≤ 6 := List.length_take_le 6 _
  unfold heading? at h
  simp only at h
  split at h
  · split at h
    · cases h
    · cases h
      exact ⟨Nat.le_trans (Nat.sub_le _ 1) hmarks,'#',[],rfl,by decide⟩
  · rename_i hne
    cases h
    refine ⟨hmarks,?_⟩
    rcases hbody : (l.drop ((l.takeWhile (· = '#')).take 6).length).dropWhile Text.isBlank with _ | ⟨c,r⟩
    · exact absurd hbody hne
    · refine ⟨c,r,rfl,?_⟩
      have hhead := List.head?_dropWhile_not Text.isBlank
        (l.drop ((l.takeWhile (· = '#')).take 6).length)
      rw [hbody] at hhead
      simpa using hhead

theorem forall₂_heading (l : Text) : List.Forall₂ Shows (headingPart l) (headingNodes l) := by
  unfold headingPart headingNodes
  cases h : heading? (Text.trim l) with
  | none => exact .nil
  | some x =>
    obtain ⟨level,t⟩ := x
    obtain ⟨hlevel,ht⟩ := heading?_eq_some h
    refine .cons ?_ .nil
    have hshow := shows_description (isContainer_heading hlevel) ht
    show Shows ("<h".toList ++ Text.ofNat level ++ '>' :: Text.escapeContent t ++ "</h".toList ++
      Text.ofNat level ++ ['>']) _
    simpa [headingNode] using hshow

theorem forall₂_describeFrom {p : List Text} (hp : ∀ l ∈ p, BeginsVisibly l) (ls : List Text) :
    List.Forall₂ Shows (describeFrom p ls) (descriptionFrom p ls) := by
  induction ls generalizing p with
  | nil => exact forall₂_paragraph hp
  | cons l ls ih =>
    rw [descriptionFrom]
    cases hblank : Text.allBlank l with
    | true =>
      rw [describeFrom_blank hblank,if_pos rfl]
      exact List.rel_append (forall₂_paragraph hp) (ih (by simp))
    | false =>
      rw [if_neg Bool.false_ne_true]
      cases hprose : isProse l with
      | true =>
        rw [describeFrom_prose hprose,if_pos rfl]
        refine ih fun k hk => ?_
        rcases List.mem_append.mp hk with hk | hk
        · exact hp k hk
        · rw [List.mem_singleton.mp hk]
          exact beginsVisibly_trim hblank
      | false =>
        rw [describeFrom_heading hblank hprose,if_neg Bool.false_ne_true]
        exact List.rel_append (forall₂_paragraph hp)
          (List.rel_append (forall₂_heading l) (ih (by simp)))

theorem Item.forall₂_description (x : Item) :
    List.Forall₂ Shows (describeFrom [] (Text.lines x.content)) x.description :=
  forall₂_describeFrom (by simp) _

/-! The markup as elements around lines. -/

theorem attributesMarkup_eq (d : Dictionary Text) : attributesMarkup d =
    attributesText (fun v => doubleQuoted (Text.escapeAttribute v)) d := by
  refine congrArg (fun f => List.flatMap f d) ?_
  funext a
  simp [attributeMarkup,doubleQuoted]

theorem escapeAttribute_ofNat (n : Nat) : Text.escapeAttribute (Text.ofNat n) = Text.ofNat n := by
  have hchar : ∀ c ∈ Text.ofNat n, Text.escapeAttributeChar c = [c] := by
    intro c hc
    have hrange := Text.toNat_of_isDigit (Decimal.isFigures_ofNat n c hc)
    have hne : ∀ d : Char, d.toNat < 48 ∨ 57 < d.toNat → c ≠ d := by
      rintro d hd rfl
      omega
    simp [Text.escapeAttributeChar,Text.escapeContentChar,hne]
  rw [Text.escapeAttribute,List.flatMap_def,List.map_congr_left hchar,← List.flatMap_def]
  simp

/-- The text of an element around the description of an item. -/
def Item.text (name : Text) (attrs : Dictionary Text) (x : Item) : Text :=
  elementText name attrs (Text.below (describeFrom [] (Text.lines x.content)) ++ ['\n'])

theorem below_rendered (x : Item) : Text.below (if x.rendered.isEmpty then [] else [x.rendered]) =
    Text.below (describeFrom [] (Text.lines x.content)) := by
  have hshow := x.forall₂_description
  unfold Item.rendered describe
  cases h : describeFrom [] (Text.lines x.content) with
  | nil => rfl
  | cons f fs =>
    rw [h] at hshow
    obtain ⟨_,_,hfirst,-,-⟩ := List.forall₂_cons_left_iff.mp hshow
    have hjoin : (Text.joinLines (f::fs)).isEmpty = false := by
      rw [Text.joinLines_cons]
      simp [hfirst.ne_nil]
    rw [hjoin,if_neg Bool.false_ne_true,Text.below_eq (List.cons_ne_nil f fs),Text.below_cons]
    simp

theorem below_item {x : Item} {name start stop : Text} {attrs : Dictionary Text}
    (hstart : start = startText name attrs) (hstop : stop = endText name) :
    Text.below ([start] ++ (if x.rendered.isEmpty then [] else [x.rendered]) ++ [stop]) =
      Text.below [x.text name attrs] := by
  rw [Text.below_append,Text.below_append,below_rendered,hstart,hstop]
  simp [Text.below_cons,Item.text,elementText]

theorem below_nodeMarkup (b : Block) (x : Item) (n : Nat) :
    Text.below (nodeMarkup (nodeAttributes b.connections) n x) =
      Text.below [x.text "network-node".toList (b.attributes x n)] := by
  refine below_item ?_ rfl
  have hown : ((nodeAttributes b.connections).find? x.name).getD [] = b.own x := rfl
  simp [startText,Block.attributes,attributesText,hown,attributesMarkup_eq,attributeMarkup,doubleQuoted,
    escapeAttribute_ofNat]

theorem below_edgeItemMarkup (x : Item) : Text.below (edgeItemMarkup x) =
    Text.below [x.text "network-edge".toList [("name".toList,x.name)]] := by
  refine below_item ?_ rfl
  simp [startText,attributesText,attributeMarkup,doubleQuoted]

theorem below_flatMap {α : Type} {f : α → List Text} {g : α → Text}
    (h : ∀ x, Text.below (f x) = Text.below [g x]) (xs : List α) :
    Text.below (xs.flatMap f) = Text.below (xs.map g) := by
  induction xs with
  | nil => rfl
  | cons x xs ih =>
    rw [List.flatMap_cons,Text.below_append,h,ih,← Text.below_append]
    rfl

/-- What stands on the lines of a block. -/
def Block.texts (b : Block) : List Text :=
  b.nodes.zipIdx.map (fun x => x.1.text "network-node".toList (b.attributes x.1 x.2)) ++
    b.edgeItems.map (fun x => x.text "network-edge".toList [("name".toList,x.name)]) ++
    (edges b.connections).map edgeMarkup

theorem markup_eq (b : Block) : b.markup =
    elementText "network-visualization".toList b.settings (Text.below b.texts ++ ['\n']) ++ ['\n'] := by
  have hnode : ∀ x : Item × Nat, Text.below (nodeMarkup (nodeAttributes b.connections) x.2 x.1) =
      Text.below [x.1.text "network-node".toList (b.attributes x.1 x.2)] := fun x =>
    below_nodeMarkup b x.1 x.2
  have hnodes := below_flatMap hnode b.nodes.zipIdx
  have hedges := below_flatMap below_edgeItemMarkup b.edgeItems
  unfold Block.markup
  simp only [List.cons_append,List.nil_append,Text.joinLines_cons,Text.below_append,hnodes,hedges,
    attributesMarkup_eq]
  simp [Block.texts,Text.below_append,Text.below_cons,elementText,startText,endText]

/-! Reading. -/

theorem shows_item {name : Text} {attrs : Dictionary Text} (hname : IsContainer name)
    (h : Nameable attrs.keys) (x : Item) :
    Shows (x.text name attrs) (.element name (asRead name attrs) (onLines x.description)) :=
  shows_onLines hname h x.forall₂_description

end Network
end Longform
