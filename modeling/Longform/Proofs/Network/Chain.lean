import Longform.Proofs.Network.Arrow
import Longform.Proofs.Network.Reference

/-! Chains of references with an arrow in full between neighbours. The edges of a line are those of its
chain, one for each arrow, and they do not depend on the side that the line is written from. -/
namespace Longform
namespace Network

/-- An arrow, the blanks around it and the reference behind it. -/
structure Link where
  front : Text
  arrow : Arrow
  back : Text
  next : Reference

structure Chain where
  first : Reference
  links : List Link

namespace Link

/-- What stands in front of the next reference. -/
def gap (l : Link) : Text := l.front ++ l.arrow.text ++ l.back

def text (l : Link) : Text := l.gap ++ l.next.text

/-- The edge from or to the reference in front, as the arrow points. -/
def edge (x : Reference) (l : Link) : Edge :=
  if l.arrow.backward then ⟨l.next.name,x.name,l.arrow.label,.backward⟩
  else ⟨x.name,l.next.name,l.arrow.label,.forward⟩

end Link

namespace Chain

def text (c : Chain) : Text := c.first.text ++ c.links.flatMap Link.text

def references (c : Chain) : List Reference := c.first::c.links.map (·.next)

/-- One edge for each arrow, between the references on its sides. -/
def edges (c : Chain) : List Edge := List.zipWith Link.edge c.references c.links

/-- The links of a chain written from the other end, in front of some that are written already. -/
def reverseOnto (x : Reference) (done : List Link) : List Link → Chain
  | [] => ⟨x,done⟩
  | l::ls => reverseOnto l.next (⟨l.back,l.arrow.turn,l.front,x⟩::done) ls

/-- The chain with its references in reverse order and its arrows turned round. -/
def reverse (c : Chain) : Chain := reverseOnto c.first [] c.links

end Chain

/-- A reference with a trimmed name. -/
structure IsNode (x : Reference) : Prop where
  written : x.Written
  trimmed : Text.trim x.name = x.name

theorem isNode_of_isName {name : Text} (h : IsName name) (htrim : Text.trim name = name) :
    IsNode ⟨name,none⟩ :=
  ⟨⟨h,by simp⟩,htrim⟩

structure IsLink (l : Link) : Prop where
  front : ∀ c ∈ l.front, Text.isBlank c = true
  back : ∀ c ∈ l.back, Text.isBlank c = true
  /-- A label is trimmed, and no parenthesis in it opens a reference. -/
  label : ∀ t ∈ l.arrow.label, IsLabel t ∧ Text.trim t = t ∧ '(' ∉ t
  next : IsNode l.next

structure IsChain (c : Chain) : Prop where
  first : IsNode c.first
  links : ∀ l ∈ c.links, IsLink l

/-- The same edge, of an arrow that points the other way in its line. -/
def Edge.turn (e : Edge) : Edge :=
  { e with direction := match e.direction with | .forward => .backward | .backward => .forward }

theorem Arrow.not_mem_text {x : Arrow} (hx : ∀ l ∈ x.label, '(' ∉ l) : '(' ∉ x.text := by
  obtain ⟨backward,label⟩ := x
  cases label with
  | none => cases backward <;> decide
  | some l =>
    have hl : '(' ∉ l := hx l rfl
    cases backward <;> simp [text,textWith,head,tag,stop,hl]

namespace IsLink
variable {l : Link}

theorem not_mem_blank {t : Text} (h : ∀ c ∈ t, Text.isBlank c = true) : '(' ∉ t := by
  intro hm
  have hblank := h '(' hm
  revert hblank
  decide

theorem isUnopened_gap (hl : IsLink l) : isUnopened l.gap = true := by
  apply isUnopened_of_not_mem
  have hfront := not_mem_blank hl.front
  have hback := not_mem_blank hl.back
  have harrow := Arrow.not_mem_text fun t ht => (hl.label t ht).2.2
  simp [Link.gap,hfront,hback,harrow]

theorem read?_gap (hl : IsLink l) : Arrow.read? (Text.trim l.gap) = some l.arrow := by
  rw [Link.gap,Text.trim_append_append hl.front hl.back,Arrow.trim_text]
  exact Arrow.read?_text fun t ht => (hl.label t ht).1

/-- Trimming changes nothing about the edge of a link. -/
theorem edge_eq (hl : IsLink l) {x : Reference} (hx : IsNode x) :
    l.arrow.edge x l.next = l.edge x := by
  have hlabel : l.arrow.label.map Text.trim = l.arrow.label := by
    cases h : l.arrow.label with
    | none => rfl
    | some t => simp [(hl.label t h).2.1]
  simp [Arrow.edge,Link.edge,hx.trimmed,hl.next.trimmed,hlabel]

end IsLink

/-- The references of a chain, each with what stands between it and the one in front. -/
theorem referencesBehind_chain {x : Reference} (hx : IsNode x) {links : List Link}
    (hlinks : ∀ l ∈ links, IsLink l) (before : Text) :
    referencesBehind before (x.text ++ links.flatMap Link.text) =
      (before,x)::links.map fun l => (l.gap,l.next) := by
  induction links generalizing x before with
  | nil => simpa using referencesBehind_text hx.written before []
  | cons l ls ih =>
    rw [List.forall_mem_cons] at hlinks
    have hnext := ih hlinks.1.next hlinks.2 l.gap
    rw [referencesBehind_text hx.written,List.flatMap_cons,Link.text,List.append_assoc,
      referencesBehind_append hlinks.1.isUnopened_gap,List.nil_append,hnext]
    simp

theorem edgesBetween_chain {x : Reference} (hx : IsNode x) {links : List Link}
    (hlinks : ∀ l ∈ links, IsLink l) (before : Text) :
    edgesBetween ((before,x)::links.map fun l => (l.gap,l.next)) = (Chain.mk x links).edges := by
  induction links generalizing x before with
  | nil => simp [edgesBetween,Chain.edges]
  | cons l ls ih =>
    rw [List.forall_mem_cons] at hlinks
    have hnext := ih hlinks.1.next hlinks.2 l.gap
    simp only [List.map_cons,edgesBetween,hlinks.1.read?_gap,Option.map_some,hlinks.1.edge_eq hx,hnext]
    simp [Chain.edges,Chain.references]

theorem IsChain.edgesBetween_text {c : Chain} (hc : IsChain c) :
    edgesBetween (Network.references c.text) = c.edges := by
  have hreferences := referencesBehind_chain hc.first hc.links []
  have hedges := edgesBetween_chain hc.first hc.links []
  rw [Network.references,Chain.text]
  exact (congrArg edgesBetween hreferences).trans hedges

namespace Chain

theorem edges_reverseOnto (x : Reference) (done links : List Link) :
    (reverseOnto x done links).edges =
      ((Chain.mk x links).edges.map Edge.turn).reverse ++ (Chain.mk x done).edges := by
  induction links generalizing x done with
  | nil => simp [reverseOnto,edges]
  | cons l ls ih =>
    have hturn : Link.edge l.next ⟨l.back,l.arrow.turn,l.front,x⟩ = (Link.edge x l).turn := by
      obtain ⟨front,⟨backward,label⟩,back,next⟩ := l
      cases backward <;> simp [Link.edge,Arrow.turn,Edge.turn]
    rw [reverseOnto,ih]
    simp [edges,references,hturn]

theorem edges_reverse (c : Chain) : c.reverse.edges = (c.edges.map Edge.turn).reverse := by
  rw [reverse,edges_reverseOnto]
  simp [edges]

theorem isChain_reverseOnto {x : Reference} (hx : IsNode x) {done links : List Link}
    (hdone : ∀ l ∈ done, IsLink l) (hlinks : ∀ l ∈ links, IsLink l) :
    IsChain (reverseOnto x done links) := by
  induction links generalizing x done with
  | nil => exact ⟨hx,hdone⟩
  | cons l ls ih =>
    rw [List.forall_mem_cons] at hlinks
    have hback : IsLink ⟨l.back,l.arrow.turn,l.front,x⟩ :=
      ⟨hlinks.1.back,hlinks.1.front,hlinks.1.label,hx⟩
    apply ih hlinks.1.next _ hlinks.2
    simpa using ⟨hback,hdone⟩

end Chain

theorem IsChain.reverse {c : Chain} (hc : IsChain c) : IsChain c.reverse :=
  Chain.isChain_reverseOnto hc.first (by simp) hc.links

theorem edges_map_text {cs : List Chain} (h : ∀ c ∈ cs, IsChain c) :
    edges (cs.map Chain.text) = cs.flatMap Chain.edges := by
  induction cs with
  | nil => rfl
  | cons c cs ih =>
    rw [List.forall_mem_cons] at h
    have hrest : edges (cs.map Chain.text) = cs.flatMap Chain.edges := ih h.2
    unfold edges at hrest ⊢
    rw [List.map_cons,List.flatMap_cons,h.1.edgesBetween_text,hrest,List.flatMap_cons]

theorem IsChain.edges_text {c : Chain} (hc : IsChain c) : edges [c.text] = c.edges := by
  have hone : ∀ d ∈ [c], IsChain d := by simpa using hc
  simpa using edges_map_text hone

/-- Lines of chains have the edges of their chains, one for each arrow. A line that is written from the
other end, its arrows turned round, has the same edges. -/
theorem edges_chains {cs : List Chain} (h : ∀ c ∈ cs, IsChain c) :
    edges (cs.map Chain.text) = cs.flatMap Chain.edges ∧ ∀ c ∈ cs,
      (edges [c.text]).length = c.links.length ∧
      edges [c.reverse.text] = ((edges [c.text]).map Edge.turn).reverse := by
  refine ⟨edges_map_text h,fun c hc => ?_⟩
  have hchain := h c hc
  rw [hchain.edges_text,hchain.reverse.edges_text]
  exact ⟨by simp [Chain.edges,Chain.references],c.edges_reverse⟩

theorem edges_chains_two :
    let c : Chain := ⟨⟨"A (x".toList,some "color:red".toList⟩,
      [⟨[' '],⟨false,some "reads |)".toList⟩,[],⟨"B".toList,none⟩⟩,
        ⟨"  ".toList,⟨true,none⟩,['\t'],⟨"C".toList,some []⟩⟩]⟩
    IsChain c ∧ c.text = "(A (x|color:red) -[reads |)]->(B)  <--\t(C|)".toList ∧
      edges [c.text] = [⟨"A (x".toList,"B".toList,some "reads |)".toList,.forward⟩,
        ⟨"C".toList,"B".toList,none,.backward⟩] ∧
      edges [c.reverse.text] = [⟨"C".toList,"B".toList,none,.forward⟩,
        ⟨"A (x".toList,"B".toList,some "reads |)".toList,.backward⟩] := by
  intro c
  have hfirst : IsNode c.first := ⟨⟨by decide,by simp [c]⟩,by decide⟩
  have hright : IsNode ⟨"B".toList,none⟩ := isNode_of_isName (by decide) (by decide)
  have hleft : IsNode ⟨"C".toList,some []⟩ := ⟨⟨by decide,by simp⟩,by decide⟩
  have hlabel : IsLabel "reads |)".toList ∧
      Text.trim "reads |)".toList = "reads |)".toList ∧ '(' ∉ "reads |)".toList := by decide
  have hlinks : ∀ l ∈ c.links, IsLink l := by
    simp only [c,List.forall_mem_cons]
    exact ⟨⟨List.all_eq_true.mp rfl,List.forall_mem_nil _,by simpa using hlabel,hright⟩,
      ⟨List.all_eq_true.mp rfl,List.all_eq_true.mp rfl,by simp,hleft⟩,List.forall_mem_nil _⟩
  have hc : IsChain c := ⟨hfirst,hlinks⟩
  have hone : ∀ d ∈ [c], IsChain d := by simpa using hc
  have hedges := edges_chains hone
  have hline : edges [c.text] = c.edges := by simpa using hedges.1
  have hreverse := (hedges.2 c (by simp)).2
  rw [hline] at hreverse
  exact ⟨hc,by decide,hline.trans (by decide),hreverse.trans (by decide)⟩

end Network
end Longform
