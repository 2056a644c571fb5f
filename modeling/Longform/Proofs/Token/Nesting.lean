import Mathlib.Algebra.BigOperators.Group.List.Basic
import Mathlib.Algebra.Ring.Int.Defs
import Longform.Proofs.Token.Shape

/-! Openings and closings of a stream. Tokens are closed when every opening among them is matched, and
the closing that matches an opening is the one with closed tokens between the two. -/
namespace Longform
namespace Token

/-- How many more elements tokens open than they close. -/
def nestingSum (ts : List Token) : Int := (ts.map nesting).sum

@[simp] theorem nestingSum_nil : nestingSum [] = 0 := rfl
@[simp] theorem nestingSum_cons (t : Token) (ts : List Token) :
    nestingSum (t::ts) = t.nesting + nestingSum ts := by simp [nestingSum]
@[simp] theorem nestingSum_append (xs ys : List Token) :
    nestingSum (xs ++ ys) = nestingSum xs + nestingSum ys := by simp [nestingSum]

/-- No element closes that is not open, and none is left open. -/
structure Closed (ts : List Token) : Prop where
  nonneg : ∀ front, front <+: ts → 0 ≤ nestingSum front
  sum_eq : nestingSum ts = 0

section Closed

variable {xs ys inner inner' post post' pre rest : List Token} {t o c c' : Token}

theorem closed_nil : Closed [] :=
  ⟨fun front h => by simp [List.prefix_nil.mp h],rfl⟩

theorem Closed.append (hx : Closed xs) (hy : Closed ys) : Closed (xs ++ ys) := by
  refine ⟨fun front h => ?_,by simp [hx.sum_eq,hy.sum_eq]⟩
  rcases List.prefix_or_prefix_of_prefix h (List.prefix_append xs ys) with hfront | ⟨more,rfl⟩
  · exact hx.nonneg front hfront
  · rw [nestingSum_append,hx.sum_eq,Int.zero_add]
    exact hy.nonneg more ((List.prefix_append_right_inj xs).mp h)

theorem closed_singleton (h : t.nesting = 0) : Closed [t] := by
  refine ⟨fun front hfront => ?_,by simp [h]⟩
  rcases List.prefix_cons_iff.mp hfront with rfl | ⟨more,rfl,hmore⟩
  · exact Int.le_refl _
  · simp [List.prefix_nil.mp hmore,h]

theorem Closed.enclose (h : Closed xs) (ho : o.nesting = 1) (hc : c.nesting = -1) :
    Closed (o::(xs ++ [c])) := by
  refine ⟨fun front hfront => ?_,by simp [h.sum_eq,ho,hc]⟩
  rcases List.prefix_cons_iff.mp hfront with rfl | ⟨more,rfl,hmore⟩
  · exact Int.le_refl _
  rw [nestingSum_cons,ho]
  rcases List.prefix_concat_iff.mp hmore with rfl | hmore
  · simp [h.sum_eq,hc]
  · have hnonneg := h.nonneg more hmore
    omega

/-- Closed tokens in front of a closing cannot reach beyond it. -/
theorem Closed.not_append_cons (h : Closed (inner ++ c::rest)) (hinner : nestingSum inner ≤ 0)
    (hc : c.nesting = -1) : False := by
  have hnonneg := h.nonneg (inner ++ [c]) ⟨rest,by simp⟩
  rw [nestingSum_append,nestingSum_cons,nestingSum_nil,hc] at hnonneg
  omega

/-- An opening has one matching closing. -/
theorem Closed.eq_of_append_cons (h : Closed inner) (h' : Closed inner') (hc : c.nesting = -1)
    (hc' : c'.nesting = -1) (heq : inner ++ c::post = inner' ++ c'::post') :
    inner = inner' ∧ c = c' ∧ post = post' := by
  rcases List.append_eq_append_iff.mp heq with ⟨more,rfl,hmore⟩ | ⟨more,rfl,hmore⟩
  · cases more with
    | nil => simpa using hmore
    | cons d more =>
      obtain ⟨rfl,-⟩ := List.cons_eq_cons.mp hmore
      exact (h'.not_append_cons (Int.le_of_eq h.sum_eq) hc).elim
  · cases more with
    | nil => simpa [eq_comm] using hmore
    | cons d more =>
      obtain ⟨rfl,-⟩ := List.cons_eq_cons.mp hmore
      exact (h.not_append_cons (Int.le_of_eq h'.sum_eq) hc').elim

/-- The closing that matches an opening among closed tokens is one of them. -/
theorem Closed.exists_matching (h : Closed (pre ++ o::rest)) (ho : o.nesting = 1)
    (hinner : Closed inner) (heq : inner ++ c::post = rest ++ ys) :
    ∃ post', rest = inner ++ c::post' ∧ post = post' ++ ys := by
  have hpre := h.nonneg pre (List.prefix_append _ _)
  have hsum := h.sum_eq
  rw [nestingSum_append,nestingSum_cons,ho] at hsum
  rcases List.append_eq_append_iff.mp heq with ⟨more,rfl,hmore⟩ | ⟨more,rfl,hmore⟩
  · cases more with
    | nil =>
      rw [List.append_nil,hinner.sum_eq] at hsum
      omega
    | cons d more =>
      obtain ⟨rfl,rfl⟩ := List.cons_eq_cons.mp hmore
      exact ⟨more,rfl,rfl⟩
  · have hnonneg := hinner.nonneg rest (List.prefix_append _ _)
    omega

end Closed

section Matches

/-- A closing matches an opening when the tokens between the two are closed. -/
structure Matches (o : Token) (inner : List Token) (c : Token) : Prop where
  opens : o.nesting = 1
  inner_closed : Closed inner
  closes : c.nesting = -1

variable {xs ys pre inner inner' post post' : List Token} {o o' c c' : Token}

/-- An element of tokens in a row lies in the first or in the last of them. -/
theorem Matches.of_append (h : Matches o inner c) (hxs : Closed xs)
    (heq : xs ++ ys = pre ++ o::(inner ++ c::post)) :
    (∃ post', xs = pre ++ o::(inner ++ c::post') ∧ post = post' ++ ys) ∨
      ∃ pre', pre = xs ++ pre' ∧ ys = pre' ++ o::(inner ++ c::post) := by
  rcases List.append_eq_append_iff.mp heq with ⟨more,rfl,hmore⟩ | ⟨more,rfl,hmore⟩
  · exact .inr ⟨more,rfl,hmore⟩
  cases more with
  | nil => exact .inr ⟨[],by simp,hmore.symm⟩
  | cons u rest =>
    obtain ⟨rfl,hrest⟩ := List.cons_eq_cons.mp hmore
    obtain ⟨post',rfl,rfl⟩ := hxs.exists_matching h.opens h.inner_closed hrest
    exact .inl ⟨post',rfl,rfl⟩

/-- An element of an element with some tokens behind it is that element, or lies in it or behind. -/
theorem Matches.of_enclose (h : Matches o inner c) (h' : Matches o' inner' c')
    (heq : o::(inner ++ c::post) = pre ++ o'::(inner' ++ c'::post')) :
    (o = o' ∧ inner = inner' ∧ post = post') ∨
      ∃ pre', inner ++ c::post = pre' ++ o'::(inner' ++ c'::post') := by
  cases pre with
  | nil =>
    obtain ⟨rfl,hrest⟩ := List.cons_eq_cons.mp heq
    obtain ⟨rfl,-,rfl⟩ := h.inner_closed.eq_of_append_cons h'.inner_closed h.closes h'.closes hrest
    exact .inl ⟨rfl,rfl,rfl⟩
  | cons u pre => exact .inr ⟨pre,(List.cons_eq_cons.mp heq).2⟩

end Matches

section Shaped

variable {level : Int} {ts inner : List Token} {o c : Token}

theorem Encloses.closed (h : Encloses level o c) (hinner : Closed inner) : Closed (o::(inner ++ [c])) :=
  hinner.enclose h.opens h.closes

theorem Encloses.matches (h : Encloses level o c) (hinner : Closed inner) : Matches o inner c :=
  ⟨h.opens,hinner,h.closes⟩

theorem Shaped.closed (h : Shaped level ts) : Closed ts := by
  induction h with
  | nil => exact closed_nil
  | leaf _ ht ih => exact ih.append (closed_singleton ht.nesting_eq)
  | paragraph _ hp ih => exact ih.append (hp.closed (closed_singleton hp.text_nesting))
  | quote _ _ hq ih ihinner => exact ih.append (hq.closed ihinner)
  | container _ _ hc ih ihinner => exact ih.append (hc.closed ihinner)

end Shaped
end Token
end Longform
