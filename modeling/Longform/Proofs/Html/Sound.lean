import Mathlib.Data.List.Chain
import Longform.Proofs.Dictionary
import Longform.Proofs.Html.Building

/-! Trees of the form that the reader gives. Where no texts stand side by side and every tag and text is
understood, the markup of such a tree is read as the same tree, up to the order of attributes. -/
namespace Longform.Html

open Builder

/-- Attributes as they are kept: names in lower case and without repetition, values in their form. -/
structure IsKept (name : Text) (attrs : Dictionary Text) : Prop where
  names : ∀ a ∈ attrs, IsAttributeName a.1
  lower : ∀ a ∈ attrs, Text.lower a.1 = a.1
  nodup : attrs.keys.Nodup
  words : ∀ a ∈ attrs, isListAttribute name a.1 = true → words a.2 = a.2
  charset : name = "meta".toList → ownCharset attrs = attrs

/-- A text as it is kept inside elements of some names. Only a declaration may hold its own end. -/
structure SoundText (around : List Text) (kind : TextKind) (t : Text) : Prop where
  content : kind ≠ .declaration → IsContent kind t
  nonempty : kind.isPlain = true → t ≠ []
  side : kind.isPlain = true → (kind = .side ↔ around.any isSide = true)
  squeezed : around.any keepsBlanks = true ∨ squeeze t = t

mutual
/-- A node as it is kept inside elements of some names. -/
def Sound (around : List Text) : Node → Prop
  | .text kind t => SoundText around kind t
  | .element name attrs children => IsElementName name ∧ IsKept name attrs ∧
      (isVoid name = true → children = []) ∧
      (isLiteralName name = true → children = [] ∨ ∃ t, children = [.text .side t]) ∧
      SoundAll (name::around) children
def SoundAll (around : List Text) : List Node → Prop
  | [] => True
  | n::ns => Sound around n ∧ SoundAll around ns
end

theorem soundAll_iff {around : List Text} {ns : List Node} :
    SoundAll around ns ↔ ∀ n ∈ ns, Sound around n := by
  induction ns with
  | nil => simp [SoundAll]
  | cons n ns ih => rw [SoundAll,ih,List.forall_mem_cons]

mutual
/-- What the writer makes of the node is understood: end tags name what they close, and no declaration,
script or style ends early. -/
def Clear : Node → Prop
  | .text kind t => kind = .declaration → '>' ∉ t
  | .element name _ children => Closable name ∧
      (isLiteralName name = true → ∀ t, children = [.text .side t] → cutLiteral name t = none) ∧
      ClearAll children
def ClearAll : List Node → Prop
  | [] => True
  | n::ns => Clear n ∧ ClearAll ns
end

theorem clear_text {kind : TextKind} {t : Text} (h : kind ≠ .declaration) : Clear (.text kind t) :=
  fun hkind => absurd hkind h

/-- Of two nodes at least one is no plain text. -/
def Apart (m n : Node) : Prop := m.plain? = none ∨ n.plain? = none

instance (m n : Node) : Decidable (Apart m n) := inferInstanceAs (Decidable (_ ∨ _))

mutual
/-- No texts stand side by side in the node, and none is written as one of another kind. -/
def Distinct : Node → Prop
  | .text kind _ => kind ≠ .declaration ∧ kind ≠ .doctype
  | .element _ _ children => children.IsChain Apart ∧ DistinctAll children
def DistinctAll : List Node → Prop
  | [] => True
  | n::ns => Distinct n ∧ DistinctAll ns
end

mutual
theorem legible_of_sound {around : List Text} {n : Node} (h : Sound around n) (hc : Clear n) :
    Legible n := by
  cases n with
  | text kind t =>
    by_cases hk : kind = .declaration
    · subst hk
      exact hc rfl
    · exact h.content hk
  | element name attrs children =>
    obtain ⟨hname,hattrs,hvoid,hliteral,hchildren⟩ := h
    obtain ⟨hclose,hends,hclear⟩ := hc
    refine ⟨hname,hclose,hattrs.names,hvoid,?_⟩
    split
    · rename_i hl
      exact (hliteral hl).imp id fun ⟨t,ht⟩ => ⟨t,ht,hends hl t ht⟩
    · exact legibleAll_of_sound hchildren hclear

theorem legibleAll_of_sound {around : List Text} {ns : List Node} (h : SoundAll around ns)
    (hc : ClearAll ns) : LegibleAll ns := by
  cases ns with
  | nil => trivial
  | cons n ns => exact ⟨legible_of_sound h.1 hc.1,legibleAll_of_sound h.2 hc.2⟩
end

mutual
/-- The same up to the order of attributes. -/
def Alike : Node → Node → Prop
  | .text kind t,.text kind' t' => kind = kind' ∧ t = t'
  | .element name attrs children,.element name' attrs' children' =>
    name = name' ∧ attrs.Perm attrs' ∧ AlikeAll children children'
  | _,_ => False
def AlikeAll : List Node → List Node → Prop
  | [],[] => True
  | n::ns,m::ms => Alike n m ∧ AlikeAll ns ms
  | _,_ => False
end

theorem AlikeAll.append {ns ms ns' ms' : List Node} (h : AlikeAll ns ms) (h' : AlikeAll ns' ms') :
    AlikeAll (ns ++ ns') (ms ++ ms') := by
  induction ns generalizing ms with
  | nil =>
    cases ms with
    | nil => exact h'
    | cons m ms => exact h.elim
  | cons n ns ih =>
    cases ms with
    | nil => exact h.elim
    | cons m ms => exact ⟨h.1,ih h.2⟩

/-! Attributes. -/

section Attributes
variable {name : Text} {attrs attrs' : Dictionary Text}

theorem keys_perm (h : attrs.Perm attrs') : attrs.keys.Perm attrs'.keys := h.map _

theorem readAttributes_eq (hlower : ∀ a ∈ attrs, Text.lower a.1 = a.1) (h : attrs.keys.Nodup) :
    readAttributes attrs = attrs := by
  have hmap : (attrs.map fun a => (Text.lower a.1,a.2)) = attrs := by
    conv => rhs; rw [← List.map_id attrs]
    refine List.map_congr_left fun a ha => ?_
    rw [hlower a ha]
    rfl
  rw [readAttributes,hmap,Dictionary.ofEntries_of_nodup h]

/-- Whether the character set is as it has to be does not depend on the order of attributes. -/
theorem ownCharset_perm (h : attrs.Perm attrs') (hd : attrs.keys.Nodup)
    (hown : ownCharset attrs = attrs) : ownCharset attrs' = attrs' := by
  have hfind : ∀ k, Dictionary.find? k attrs' = Dictionary.find? k attrs := fun k =>
    (Dictionary.find?_perm h hd).symm
  have hhas : attrs'.hasKey "charset".toList = attrs.hasKey "charset".toList := by
    unfold Dictionary.hasKey
    rw [hfind]
  unfold ownCharset at hown ⊢
  rw [hhas,hfind,hfind]
  split
  · rename_i hkey
    rw [if_pos hkey,Dictionary.set_eq_self_iff] at hown
    rw [Dictionary.set_eq_self_iff,hfind,hown]
  · rename_i hkey
    rw [if_neg hkey] at hown
    split
    · rename_i content kind hcontent hkind
      simp only [hcontent,hkind] at hown
      split
      · rename_i htype
        rw [if_pos htype,Dictionary.set_eq_self_iff] at hown
        rw [Dictionary.set_eq_self_iff,hfind,hown]
      · rfl
    · rfl

theorem IsKept.perm (h : IsKept name attrs) (hperm : attrs.Perm attrs') : IsKept name attrs' where
  names a ha := h.names a (hperm.mem_iff.mpr ha)
  lower a ha := h.lower a (hperm.mem_iff.mpr ha)
  nodup := (keys_perm hperm).nodup_iff.mp h.nodup
  words a ha := h.words a (hperm.mem_iff.mpr ha)
  charset hname := ownCharset_perm hperm h.nodup (h.charset hname)

/-- Attributes with the words of those that are lists of words. -/
def worded (name : Text) (attrs : Dictionary Text) : Dictionary Text :=
  attrs.map fun a => (a.1,if isListAttribute name a.1 then Builder.words a.2 else a.2)

theorem kept_worded (name : Text) (attrs : Dictionary Text) : kept name attrs =
    if name = "meta".toList then ownCharset (worded name attrs) else worded name attrs := rfl

theorem IsKept.kept_eq (h : IsKept name attrs) : kept name attrs = attrs := by
  have hwords : worded name attrs = attrs := by
    conv => rhs; rw [← List.map_id attrs]
    refine List.map_congr_left fun a ha => ?_
    by_cases hl : isListAttribute name a.1 = true
    · simp [hl,h.words a ha hl]
    · simp [hl]
  rw [kept_worded,hwords]
  split
  · rename_i hmeta
    exact h.charset hmeta
  · rfl

/-- Attributes that were kept are kept as they are when they are read again. -/
theorem IsKept.kept_readAttributes (h : IsKept name attrs) :
    Builder.kept name (readAttributes attrs) = attrs := by
  rw [readAttributes_eq h.lower h.nodup,h.kept_eq]

end Attributes

/-! Texts and nodes. -/

section Texts
variable {around : List Text} {kind : TextKind} {t : Text}

theorem squeezed_eq (h : SoundText around kind t) :
    (if around.any keepsBlanks then t else squeeze t) = t := by
  split
  · rfl
  · exact h.squeezed.resolve_left ‹_›

theorem finished_of_sound (h : SoundText around kind t) (hk : kind.isPlain = false) :
    finished around kind t = .text kind t := by
  have hne : kind ≠ .shown := fun he => by simp [he,TextKind.isPlain] at hk
  simp only [finished,squeezed_eq h]
  simp [hne]

theorem flushed_of_sound (h : SoundText around kind t) (hk : kind.isPlain = true) :
    flushed around (some t) = [.text kind t] := by
  have hside := h.side hk
  have hkind : (if (TextKind.shown = .shown && around.any isSide) = true then TextKind.side
      else .shown) = kind := by
    cases hs : around.any isSide with
    | true => simp [hside.mpr hs]
    | false =>
      cases kind with
      | shown => rfl
      | side => exact absurd (hside.mp rfl) (by simp [hs])
      | _ => cases hk
  rw [flushed,finished,squeezed_eq h,hkind]

end Texts

/-- What is no plain text is not printed as one. -/
theorem exists_printed {n : Node} (h : n.plain? = none) :
    ∃ m ms, n.printed = m::ms ∧ m.plain? = none := by
  cases n with
  | text kind t =>
    cases kind with
    | shown => cases h
    | side => cases h
    | _ => exact ⟨_,_,rfl,rfl⟩
  | element name attrs children => exact ⟨_,_,rfl,rfl⟩

/-- A text is finished where it ends. -/
theorem rereadAll_some {around : List Text} {t : Text} {ns : List Node}
    (h : ∀ n ∈ ns.head?, n.plain? = none) :
    Node.rereadAll around (some t) ns =
      flushed around (some t) ++ Node.rereadAll around none ns := by
  cases ns with
  | nil => simp [Node.rereadAll,flushed]
  | cons n ns =>
    have hn := h n rfl
    simp only [Node.rereadAll,hn]
    simp [flushed]

theorem rereadAll_marked {around : List Text} {n : Node} {ns : List Node} (h : n.plain? = none) :
    Node.rereadAll around none (n::ns) = n.reread around :: Node.rereadAll around none ns := by
  simp only [Node.rereadAll,h,flushed,List.nil_append]

mutual
theorem alike_reread {around : List Text} {n : Node} (h : Sound around n) (hd : Distinct n)
    (hn : n.plain? = none) :
    ∃ m, n.printed = [m] ∧ m.plain? = none ∧ Alike n (m.reread around) := by
  cases n with
  | text kind t =>
    have hk : kind.isPlain = false := by
      cases hk : kind.isPlain with
      | false => rfl
      | true => simp [Node.plain?,hk] at hn
    have hprinted : (Node.text kind t).printed = [.text kind t] := by
      cases kind with
      | declaration => exact absurd rfl hd.1
      | doctype => exact absurd rfl hd.2
      | _ => rfl
    refine ⟨_,hprinted,hn,?_⟩
    rw [Node.reread,finished_of_sound h hk]
    exact ⟨rfl,rfl⟩
  | element name attrs children =>
    obtain ⟨hname,hattrs,hvoid,hliteral,hchildren⟩ := h
    have hperm := sortedAttrs_perm attrs
    refine ⟨.element name (sortedAttrs attrs) (Node.printedAll children),rfl,rfl,?_⟩
    have hsorted := (hattrs.perm hperm.symm).kept_readAttributes
    rw [Node.reread,hsorted]
    refine ⟨rfl,hperm.symm,?_⟩
    split
    · rename_i hv
      rw [hvoid hv]
      trivial
    · exact alikeAll_rereadAll hchildren hd.2 hd.1

/-- Nodes that the reader gave are read again as they were. -/
theorem alikeAll_rereadAll {around : List Text} {ns : List Node} (h : SoundAll around ns)
    (hd : DistinctAll ns) (hchain : ns.IsChain Apart) :
    AlikeAll ns (Node.rereadAll around none (Node.printedAll ns)) := by
  cases ns with
  | nil => trivial
  | cons n ns =>
    have hrest := alikeAll_rereadAll h.2 hd.2 hchain.tail
    rw [Node.printedAll]
    cases hn : n.plain? with
    | some t =>
      obtain ⟨kind,hk,rfl⟩ : ∃ kind : TextKind, kind.isPlain = true ∧ n = .text kind t := by
        cases n with
        | text kind u =>
          cases hk : kind.isPlain with
          | false => simp [Node.plain?,hk] at hn
          | true =>
            simp only [Node.plain?,hk,if_true,Option.some.injEq] at hn
            exact ⟨kind,hk,hn ▸ rfl⟩
        | element name attrs children => cases hn
      have hprinted : (Node.text kind t).printed = [.text kind t] := by
        cases kind with
        | shown => rfl
        | side => rfl
        | _ => cases hk
      have hheld : held t none = some t := by
        have hne : t.isEmpty = false := by simpa using h.1.nonempty hk
        simp [held,hne]
      have hhead : ∀ m ∈ (Node.printedAll ns).head?, m.plain? = none := by
        cases ns with
        | nil => simp [Node.printedAll]
        | cons m ms =>
          have hm : m.plain? = none := (List.isChain_cons_cons.mp hchain).1.resolve_left (by simp [hn])
          obtain ⟨p,ps,hp,hplain⟩ := exists_printed hm
          intro q hq
          rw [Node.printedAll,hp] at hq
          cases hq
          exact hplain
      rw [hprinted,List.singleton_append,Node.rereadAll]
      simp only [hn,hheld]
      rw [rereadAll_some hhead,flushed_of_sound h.1 hk]
      exact ⟨⟨rfl,rfl⟩,hrest⟩
    | none =>
      obtain ⟨m,hm,hplain,halike⟩ := alike_reread h.1 hd.1 hn
      rw [hm,List.singleton_append,rereadAll_marked hplain]
      exact ⟨halike,hrest⟩
end

end Longform.Html
