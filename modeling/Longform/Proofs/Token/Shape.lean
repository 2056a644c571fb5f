import Mathlib.Data.List.Basic
import Longform.Markdown.Token

/-! The shape of the streams that a parser makes: blocks in a row, each of them a single token, a
paragraph of three, or a container around blocks one level deeper. -/
namespace Longform
namespace Token

/-- Kinds of tokens that only paragraphs, block quotes and captions of block quotes have. -/
def reservedKinds : List String := ["paragraph_open","paragraph_close","blockquote_open",
  "blockquote_close","attribution_open","attribution_close"]

/-- A token of a block that holds nothing. -/
structure IsLeaf (level : Int) (t : Token) : Prop where
  nesting_eq : t.nesting = 0
  level_eq : t.level = level
  kind_notMem : t.kind ∉ reservedKinds

/-- An opening and a closing of one element at a level. -/
structure Encloses (level : Int) (o c : Token) : Prop where
  opens : o.nesting = 1
  closes : c.nesting = -1
  tag_eq : c.tag = o.tag
  opening_level : o.level = level
  closing_level : c.level = level

structure IsParagraph (level : Int) (o i c : Token) : Prop extends Encloses level o c where
  opening_kind : o.kind = "paragraph_open"
  text_kind : i.kind = "inline"
  closing_kind : c.kind = "paragraph_close"
  text_nesting : i.nesting = 0
  text_level : i.level = level + 1

/-- The opening and closing of a block quote without a caption. -/
structure IsQuote (level : Int) (o c : Token) : Prop extends Encloses level o c where
  opening_kind : o.kind = "blockquote_open"
  closing_kind : c.kind = "blockquote_close"
  unmarked : o.marks.hasKey "attribution".toList = false

/-- The opening and closing of any other container. -/
structure IsContainer (level : Int) (o c : Token) : Prop extends Encloses level o c where
  opening_kind : o.kind ∉ reservedKinds
  closing_kind : c.kind ∉ reservedKinds

/-- Blocks in a row at a level. -/
inductive Shaped : Int → List Token → Prop
  | nil {level} : Shaped level []
  | leaf {level ts t} : Shaped level ts → IsLeaf level t → Shaped level (ts ++ [t])
  | paragraph {level ts o i c} : Shaped level ts → IsParagraph level o i c →
      Shaped level (ts ++ [o,i,c])
  | quote {level ts inner o c} : Shaped level ts → Shaped (level+1) inner → IsQuote level o c →
      Shaped level (ts ++ o::(inner ++ [c]))
  | container {level ts inner o c} : Shaped level ts → Shaped (level+1) inner →
      IsContainer level o c → Shaped level (ts ++ o::(inner ++ [c]))

variable {level : Int} {ts : List Token} {t o i c : Token}

theorem kind_ne {k k' : String} (h : k ∉ reservedKinds) (hk : k' ∈ reservedKinds) : k ≠ k' :=
  (ne_of_mem_of_not_mem hk h).symm

theorem Encloses.level_le {inner : List Token} (h : Encloses level o c)
    (hinner : ∀ t ∈ inner, level ≤ t.level) : ∀ t ∈ o::(inner ++ [c]), level ≤ t.level := by
  rw [List.forall_mem_cons,List.forall_mem_append,List.forall_mem_singleton]
  exact ⟨Int.le_of_eq h.opening_level.symm,hinner,Int.le_of_eq h.closing_level.symm⟩

/-- No token of some blocks lies above their level. -/
theorem Shaped.level_le (h : Shaped level ts) : ∀ t ∈ ts, level ≤ t.level := by
  have hdeeper : ∀ {level : Int} {inner : List Token}, (∀ t ∈ inner, level + 1 ≤ t.level) →
      ∀ t ∈ inner, level ≤ t.level := fun h t ht => Int.le_trans (Int.le_add_one (Int.le_refl _)) (h t ht)
  induction h with
  | nil => simp
  | leaf _ ht ih =>
    exact List.forall_mem_append.mpr ⟨ih,List.forall_mem_singleton.mpr (Int.le_of_eq ht.level_eq.symm)⟩
  | paragraph _ hp ih =>
    have htext := hdeeper (List.forall_mem_singleton.mpr (Int.le_of_eq hp.text_level.symm))
    exact List.forall_mem_append.mpr ⟨ih,hp.level_le htext⟩
  | quote _ _ hq ih ihinner =>
    exact List.forall_mem_append.mpr ⟨ih,hq.level_le (hdeeper ihinner)⟩
  | container _ _ hc ih ihinner =>
    exact List.forall_mem_append.mpr ⟨ih,hc.level_le (hdeeper ihinner)⟩

/-- The last of some blocks is a paragraph when the last token closes one. -/
theorem Shaped.exists_paragraph (h : Shaped level (ts ++ [c])) (hc : c.kind = "paragraph_close") :
    ∃ front o i, ts = front ++ [o,i] ∧ Shaped level front ∧ IsParagraph level o i c := by
  generalize hall : ts ++ [c] = all at h
  cases h with
  | nil => simp at hall
  | leaf _ ht =>
    obtain ⟨-,rfl⟩ := List.append_inj' hall rfl |>.imp_right List.singleton_inj.mp
    exact absurd hc (kind_ne ht.kind_notMem (by decide))
  | @paragraph _ front o i _ hfront hp =>
    rw [show [o,i,_] = [o,i] ++ [_] from rfl,← List.append_assoc] at hall
    obtain ⟨rfl,rfl⟩ := List.append_inj' hall rfl |>.imp_right List.singleton_inj.mp
    exact ⟨front,o,i,rfl,hfront,hp⟩
  | quote _ _ hq =>
    rw [← List.cons_append,← List.append_assoc] at hall
    obtain ⟨-,rfl⟩ := List.append_inj' hall rfl |>.imp_right List.singleton_inj.mp
    exact absurd (hc.symm.trans hq.closing_kind) (by decide)
  | container _ _ hcontainer =>
    rw [← List.cons_append,← List.append_assoc] at hall
    obtain ⟨-,rfl⟩ := List.append_inj' hall rfl |>.imp_right List.singleton_inj.mp
    exact absurd hc (kind_ne hcontainer.closing_kind (by decide))

section Build

variable {inner children : List Token} {content : Text}

/-- A token of a block at a level. -/
def blockToken (kind tag : String) (nesting level : Int) : Token :=
  { make kind tag nesting with level := level, block := true }

/-- A paragraph with some inline content. -/
def paragraphOf (level : Int) (content : Text) (children : List Token) : List Token :=
  [blockToken "paragraph_open" "p" 1 level,
    { blockToken "inline" "" 0 (level+1) with content := content, children := some children },
    blockToken "paragraph_close" "p" (-1) level]

/-- A quote around some blocks. -/
def quoteOf (level : Int) (inner : List Token) : List Token :=
  blockToken "blockquote_open" "blockquote" 1 level::(inner ++
    [blockToken "blockquote_close" "blockquote" (-1) level])

theorem encloses_blockToken {kind kind' tag : String} :
    Encloses level (blockToken kind tag 1 level) (blockToken kind' tag (-1) level) :=
  ⟨rfl,rfl,rfl,rfl,rfl⟩

theorem Shaped.paragraphOf (h : Shaped level ts) :
    Shaped level (ts ++ Token.paragraphOf level content children) :=
  .paragraph h ⟨encloses_blockToken,rfl,rfl,rfl,rfl,rfl⟩

theorem Shaped.quoteOf (h : Shaped level ts) (hinner : Shaped (level+1) inner) :
    Shaped level (ts ++ Token.quoteOf level inner) :=
  .quote h hinner ⟨encloses_blockToken,rfl,rfl,rfl⟩

end Build
end Token
end Longform
