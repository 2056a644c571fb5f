import Longform.Proofs.Token.Shape

/-! The check for matching tags. It follows the open tags through a stream and does the same for the
children of each token on their own. Blocks in a row leave the open tags as they are, so that they
are well formed when the children of each of their tokens are. -/
namespace Longform
namespace Token

/-- The open tags after some tokens, innermost first; none when a tag is closed that is not open. -/
def stackAfter (stack : List String) (ts : List Token) : Option (List String) :=
  ts.foldlM stepStack stack

section Check

variable {stack : List String} {ts : List Token} {t : Token}

theorem balanced_eq_true_iff : balanced stack ts = true ↔
    stackAfter stack ts = some [] ∧ ∀ t ∈ ts, childrenBalanced t = true := by
  induction ts generalizing stack with
  | nil => simp [balanced,stackAfter]
  | cons t ts ih =>
    rw [balanced,stackAfter,List.foldlM_cons]
    cases stepStack stack t with
    | none => simp
    | some stack' =>
      simp only [Bool.and_eq_true,ih,List.forall_mem_cons,stackAfter,Option.bind_eq_bind,
        Option.bind_some]
      exact and_left_comm

/-- A token without children counts as one whose children are well formed. -/
theorem childrenBalanced_eq : childrenBalanced t = wellFormed (t.children.getD []) := by
  cases t with
  | mk _ _ _ _ _ _ children =>
    cases children <;> rfl

theorem wellFormed_eq_true_iff : wellFormed ts = true ↔
    stackAfter [] ts = some [] ∧ ∀ t ∈ ts, wellFormed (t.children.getD []) = true := by
  rw [wellFormed,balanced_eq_true_iff]
  simp only [childrenBalanced_eq]

end Check

section Neutral

/-- Tokens that leave the open tags as they are. -/
def Neutral (ts : List Token) : Prop := ∀ stack, stackAfter stack ts = some stack

variable {level : Int} {xs ys ts : List Token} {t o i c : Token}

theorem Neutral.wellFormed_iff (h : Neutral ts) : wellFormed ts = true ↔
    ∀ t ∈ ts, wellFormed (t.children.getD []) = true := by
  rw [wellFormed_eq_true_iff]
  exact and_iff_right (h [])

theorem neutral_nil : Neutral [] := fun _ => rfl

theorem Neutral.append (hx : Neutral xs) (hy : Neutral ys) : Neutral (xs ++ ys) := by
  intro stack
  rw [stackAfter,List.foldlM_append]
  exact (congrArg (Option.bind · _) (hx stack)).trans (hy stack)

theorem neutral_singleton (h : t.nesting = 0) : Neutral [t] := fun stack => by
  simp [stackAfter,stepStack,h]

theorem Neutral.enclose (h : Neutral xs) (ho : o.nesting = 1) (hc : c.nesting = -1)
    (htag : c.tag = o.tag) : Neutral (o::(xs ++ [c])) := by
  intro stack
  have hopen : stepStack stack o = some (o.tag::stack) := if_pos ho
  have hclose : stackAfter (o.tag::stack) [c] = some stack := by
    simp [stackAfter,stepStack,hc,htag]
  rw [stackAfter,List.foldlM_cons,hopen,Option.bind_eq_bind,Option.bind_some,List.foldlM_append]
  exact (congrArg (Option.bind · _) (h _)).trans hclose

theorem Encloses.neutral (h : Encloses level o c) (hxs : Neutral xs) : Neutral (o::(xs ++ [c])) :=
  hxs.enclose h.opens h.closes h.tag_eq

/-- Blocks in a row leave the open tags as they are. -/
theorem Shaped.neutral (h : Shaped level ts) : Neutral ts := by
  induction h with
  | nil => exact neutral_nil
  | leaf _ ht ih => exact ih.append (neutral_singleton ht.nesting_eq)
  | paragraph _ hp ih => exact ih.append (hp.neutral (neutral_singleton hp.text_nesting))
  | quote _ _ hq ih ihinner => exact ih.append (hq.neutral ihinner)
  | container _ _ hc ih ihinner => exact ih.append (hc.neutral ihinner)

end Neutral
end Token
end Longform
