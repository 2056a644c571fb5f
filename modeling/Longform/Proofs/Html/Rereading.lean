import Longform.Proofs.Html.Reading

/-! Markup of a tree that is read again. Reading it has the effect of taking in the nodes one by one, and
what becomes of them is a tree of the same kind: neighbouring texts are one, and blanks are one blank. -/
namespace Longform.Html

/-- Texts that stand in markup without marks around them. -/
def TextKind.isPlain : TextKind → Bool
  | .shown | .side => true
  | _ => false

def isVoid (name : Text) : Bool := Text.isOneOf name voidNames

namespace Builder

mutual
/-- Takes in a node as it is read from markup. -/
def feed : Node → Builder → Builder
  | .text kind t, b => if kind.isPlain then b.put t else b.mark kind t
  | .element name attrs children, b =>
    if isVoid name then b.openAndClose name (readAttributes attrs)
    else (feedAll children (b.openTag name (readAttributes attrs))).close name
def feedAll : List Node → Builder → Builder
  | [], b => b
  | n::ns, b => feedAll ns (feed n b)
end

theorem feedAll_append (ns ms : List Node) (b : Builder) :
    feedAll (ns ++ ms) b = feedAll ms (feedAll ns b) := by
  induction ns generalizing b with
  | nil => rfl
  | cons n ns ih => exact ih (feed n b)

end Builder

/-- Reading the text is taking in these nodes. -/
def Reads (t : Text) (ns : List Node) : Prop := Acts t (Builder.feedAll ns)

theorem reads_nil : Reads [] [] := acts_nil

theorem Reads.append {t u : Text} {ns ms : List Node} (ht : Reads t ns) (hu : Reads u ms) :
    Reads (t ++ u) (ns ++ ms) := by
  have hfeed : (fun b => Builder.feedAll ms (Builder.feedAll ns b)) = Builder.feedAll (ns ++ ms) := by
    funext b
    rw [Builder.feedAll_append]
  unfold Reads
  rw [← hfeed]
  exact Acts.append ht hu

theorem reads_plain {t : Text} (h : ∀ c ∈ t, IsPlain c) : Reads t [.text .shown t] := acts_plain h

/-! What the markup of a node stands for. -/

mutual
/-- The nodes that the markup of a node is markup of: attributes are in the order of their names, a
declaration is written as an instruction, and a line ends behind a document type. -/
def Node.printed : Node → List Node
  | .text .declaration t => [.text .instruction (t ++ ['?'])]
  | .text .doctype t => [.text .doctype t,.text .shown ['\n']]
  | .text kind t => [.text kind t]
  | .element name attrs children => [.element name (sortedAttrs attrs) (printedAll children)]
def Node.printedAll : List Node → List Node
  | [] => []
  | n::ns => printed n ++ printedAll ns
end

/-- The content holds no end of a text of its kind. -/
def IsContent : TextKind → Text → Prop
  | .shown,_ | .side,_ => True
  | .comment,t => cutWhere afterComment? t = none
  | .rawData,t => cutWhere afterDoubleSection? t = none
  | .instruction,t | .declaration,t | .doctype,t => '>' ∉ t

mutual
/-- The markup of the node can be read: its tags are understood, and no text ends early. -/
def Legible : Node → Prop
  | .text kind t => IsContent kind t
  | .element name attrs children =>
    IsElementName name ∧ Closable name ∧ (∀ a ∈ attrs, IsAttributeName a.1) ∧
      (isVoid name = true → children = []) ∧
      if isLiteralName name then
        children = [] ∨ ∃ t, children = [.text .side t] ∧ cutLiteral name t = none
      else LegibleAll children
def LegibleAll : List Node → Prop
  | [] => True
  | n::ns => Legible n ∧ LegibleAll ns
end

theorem legibleAll_iff {ns : List Node} : LegibleAll ns ↔ ∀ n ∈ ns, Legible n := by
  induction ns with
  | nil => simp [LegibleAll]
  | cons n ns ih => rw [LegibleAll,ih,List.forall_mem_cons]

theorem legibleAll_append_iff {ns ms : List Node} :
    LegibleAll (ns ++ ms) ↔ LegibleAll ns ∧ LegibleAll ms := by
  simp only [legibleAll_iff,List.forall_mem_append]

theorem reads_text {kind : TextKind} {t : Text} (h : IsContent kind t) :
    Reads (textMarkup false kind t) (Node.printed (.text kind t)) := by
  cases kind with
  | shown => exact acts_escapeContent t
  | side => exact acts_escapeContent t
  | comment => exact acts_comment h
  | rawData => exact acts_rawData h
  | instruction => exact acts_instruction h
  | declaration =>
    have hmark : '>' ∉ t ++ ['?'] := by
      have ht : '>' ∉ t := h
      simp [ht]
    have hclose : "?>".toList = ['?'] ++ ['>'] := rfl
    show Reads ("<?".toList ++ t ++ "?>".toList) _
    rw [hclose,← List.append_assoc,List.append_assoc _ t]
    exact acts_instruction hmark
  | doctype =>
    have hclose : ">\n".toList = ['>'] ++ ['\n'] := rfl
    show Reads ("<!DOCTYPE ".toList ++ t ++ ">\n".toList) _
    rw [hclose,← List.append_assoc]
    exact (acts_doctype h).append (acts_char ⟨by decide,by decide⟩)

theorem insertAttr_perm (a : Text × Text) (attrs : Dictionary Text) :
    (insertAttr a attrs).Perm (a::attrs) := by
  induction attrs with
  | nil => exact .refl _
  | cons b attrs ih =>
    rw [insertAttr]
    split
    · exact .refl _
    · exact (ih.cons b).trans (.swap a b attrs)

theorem sortedAttrs_perm (attrs : Dictionary Text) : (sortedAttrs attrs).Perm attrs := by
  have h : ∀ (sorted : Dictionary Text), (attrs.foldl (fun s a => insertAttr a s) sorted).Perm
      (sorted ++ attrs) := by
    induction attrs with
    | nil => intro sorted; simp
    | cons a attrs ih =>
      intro sorted
      refine (ih _).trans ?_
      refine ((insertAttr_perm a sorted).append_right attrs).trans ?_
      exact List.perm_middle.symm
  exact h []

/-- The quotes in which the writer puts a value. -/
def quoted (v : Text) : Text := quotedValue (Text.escapeContent v)

theorem attributable_quoted {attrs : Dictionary Text} (h : ∀ a ∈ attrs, IsAttributeName a.1) :
    Attributable quoted (sortedAttrs attrs) := fun a ha =>
  ⟨h a ((sortedAttrs_perm attrs).mem_iff.mp ha),quotes_quotedValue a.2⟩

section Element
variable {name : Text} {attrs : Dictionary Text} {children : List Node}

theorem feedAll_void (h : isVoid name = true) : Builder.feedAll [.element name attrs children] =
    Builder.openAndClose name (readAttributes attrs) := by
  funext b
  simp only [Builder.feedAll,Builder.feed,h,if_true]

theorem feedAll_element (h : isVoid name = false) : Builder.feedAll [.element name attrs children] =
    fun b => (Builder.feedAll children (b.openTag name (readAttributes attrs))).close name := by
  funext b
  simp only [Builder.feedAll,Builder.feed,h,Bool.false_eq_true,if_false]

theorem isVoid_of_isLiteralName (h : isLiteralName name = true) : isVoid name = false := by
  rcases eq_of_isLiteralName h with rfl | rfl <;> decide

theorem reads_void {quote : Text → Text} (hname : IsElementName name) (h : Attributable quote attrs)
    (hvoid : isVoid name = true) :
    Reads ('<' :: (name ++ (attributesText quote attrs ++ ['/','>']))) [.element name attrs []] := by
  unfold Reads
  rw [feedAll_void hvoid]
  exact acts_openAndClose hname h

/-- A script or style; `hinside` tells that it holds this text and nothing else. -/
theorem reads_literal {quote : Text → Text} {t : Text} (hname : isLiteralName name = true)
    (h : Attributable quote attrs) (ht : cutLiteral name t = none)
    (hinside : Builder.feedAll children = Builder.put t) :
    Reads ('<' :: (name ++ (attributesText quote attrs ++ '>' :: (t ++ '<' :: '/' :: (name ++ ['>'])))))
      [.element name attrs children] := by
  unfold Reads
  rw [feedAll_element (isVoid_of_isLiteralName hname),hinside]
  exact acts_literal hname h ht

/-- An element whose content is markup of some nodes. -/
theorem reads_element {quote : Text → Text} {inside : Text} (hname : IsElementName name)
    (hclose : Closable name) (h : Attributable quote attrs) (hvoid : isVoid name = false)
    (hliteral : isLiteralName name = false) (hinside : Reads inside children) :
    Reads ('<' :: (name ++ (attributesText quote attrs ++
      '>' :: (inside ++ '<' :: '/' :: (name ++ ['>']))))) [.element name attrs children] := by
  have hall := ((acts_openTag hname h hliteral).append hinside).append (acts_close hname hclose)
  unfold Reads
  rw [feedAll_element hvoid]
  simpa only [List.cons_append,List.append_assoc,List.nil_append] using hall

/-- The markup of an element, when that of its content is read. -/
theorem reads_markup_element (h : Legible (.element name attrs children))
    (hinside : LegibleAll children →
      Reads (Node.markupAll false children) (Node.printedAll children)) :
    Reads ((Node.element name attrs children).markup false)
      [.element name (sortedAttrs attrs) (Node.printedAll children)] := by
  obtain ⟨hname,hclose,hattrs,hempty,hchildren⟩ := h
  have hquoted := attributable_quoted hattrs
  have hopening : attributesMarkup attrs = attributesText quoted (sortedAttrs attrs) := rfl
  rw [Node.markup,hopening]
  cases hvoid : isVoid name with
  | true =>
    have hnone := hempty hvoid
    subst hnone
    have hyes : Text.isOneOf name voidNames = true := hvoid
    simp only [List.isEmpty_nil,hyes,Bool.and_self,if_true,List.cons_append,List.append_assoc]
    exact reads_void hname hquoted hvoid
  | false =>
    have hno : Text.isOneOf name voidNames = false := hvoid
    simp only [hno,Bool.and_false,Bool.false_eq_true,if_false,List.cons_append,List.append_assoc]
    cases hliteral : isLiteralName name with
    | true =>
      rw [if_pos hliteral] at hchildren
      rcases hchildren with rfl | ⟨t,rfl,ht⟩
      · exact reads_literal (t := []) hliteral hquoted rfl rfl
      · have htext : Node.markupAll true [.text .side t] = t := List.append_nil t
        rw [htext]
        exact reads_literal hliteral hquoted ht rfl
    | false =>
      rw [if_neg (by simp [hliteral])] at hchildren
      exact reads_element hname hclose hquoted hvoid hliteral (hinside hchildren)

end Element

mutual
theorem reads_node {n : Node} (h : Legible n) : Reads (n.markup false) n.printed := by
  cases n with
  | text kind t => exact reads_text h
  | element name attrs children => exact reads_markup_element h reads_nodes

theorem reads_nodes {ns : List Node} (h : LegibleAll ns) :
    Reads (Node.markupAll false ns) (Node.printedAll ns) := by
  cases ns with
  | nil => exact reads_nil
  | cons n ns =>
    rw [Node.markupAll,Node.printedAll]
    exact (reads_node h.1).append (reads_nodes h.2)
end

end Longform.Html
