import Longform.Proofs.Token.Balance
import Longform.Proofs.Token.Nesting

/-! The grammar of well-formed streams. The check for matching tags accepts exactly the streams that the
grammar derives, and these are the ones whose openings and closings can be paired: with equal tags, one
pair inside or outside of the other, and never more closings than openings up to any place. There is one
such pairing. -/
namespace Longform
namespace Token

/-- What holds of some tokens and of the children of every token, at every depth. -/
inductive AtEveryDepth (P : List Token → Prop) : List Token → Prop
  | intro {ts} : P ts → (∀ t ∈ ts, AtEveryDepth P (t.children.getD [])) → AtEveryDepth P ts

/-- Every token opens an element, closes one, or stands for itself. -/
def Stepped (ts : List Token) : Prop := ∀ t ∈ ts, t.nesting = -1 ∨ t.nesting = 0 ∨ t.nesting = 1

/-- The streams of the grammar: nothing, a token that stands for itself and a stream, or an opening, a
stream, the closing of the same tag and a stream. The children of every token are a stream, too. -/
inductive Derived : List Token → Prop
  | nil : Derived []
  | single {t ts} : t.nesting = 0 → Derived (t.children.getD []) → Derived ts → Derived (t::ts)
  | element {o inner c ts} : o.nesting = 1 → c.nesting = -1 → c.tag = o.tag →
      Derived (o.children.getD []) → Derived inner → Derived (c.children.getD []) → Derived ts →
      Derived (o::(inner ++ c::ts))

/-- Pairs of places in a stream: each opening is paired with exactly one later closing of its tag, and
a pair that begins inside of another ends there. -/
structure IsPairing (ts : List Token) (pairs : Nat → Nat → Prop) : Prop where
  closes : ∀ i j, pairs i j → i < j ∧ ∃ o c, ts[i]? = some o ∧ ts[j]? = some c ∧
    o.nesting = 1 ∧ c.nesting = -1 ∧ c.tag = o.tag
  unique : ∀ i o, ts[i]? = some o → o.nesting = 1 → ∃! j, pairs i j
  nested : ∀ i j k l, pairs i j → pairs k l → i < k → k < j → l < j

/-- Nothing is closed that is not open, and openings and closings can be paired in one way. -/
structure Pairable (ts : List Token) : Prop where
  nonneg : ∀ front, front <+: ts → 0 ≤ nestingSum front
  pairing : ∃! pairs, IsPairing ts pairs

variable {pre mid post inner ts : List Token} {o c t : Token} {i j : Nat}

/-! The check and the grammar. -/

section Derived

theorem Derived.neutral (h : Derived ts) : Neutral ts := by
  induction h with
  | nil => exact neutral_nil
  | single ht _ _ _ ih => exact (neutral_singleton ht).append ih
  | element ho hc htag _ _ _ _ _ ihinner _ ih => simpa using (ihinner.enclose ho hc htag).append ih

theorem Derived.closed (h : Derived ts) : Closed ts := by
  induction h with
  | nil => exact closed_nil
  | single ht _ _ _ ih => exact (closed_singleton ht).append ih
  | element ho hc _ _ _ _ _ _ ihinner _ ih => simpa using (ihinner.enclose ho hc).append ih

theorem Derived.children (h : Derived ts) : ∀ t ∈ ts, Derived (t.children.getD []) := by
  induction h with
  | nil => simp
  | single _ hchildren _ _ ih => exact List.forall_mem_cons.mpr ⟨hchildren,ih⟩
  | element _ _ _ hopening _ hclosing _ _ ihinner _ ih =>
    simp only [List.forall_mem_cons,List.forall_mem_append]
    exact ⟨hopening,ihinner,hclosing,ih⟩

theorem Derived.wellFormed (h : Derived ts) : wellFormed ts = true := by
  induction h with
  | nil => rfl
  | single ht hchildren hts ihchildren ih =>
    rw [(Derived.single ht hchildren hts).neutral.wellFormed_iff]
    exact List.forall_mem_cons.mpr ⟨ihchildren,hts.neutral.wellFormed_iff.mp ih⟩
  | element ho hc htag hopening hinner hclosing hts ihopening ihinner ihclosing ih =>
    rw [(Derived.element ho hc htag hopening hinner hclosing hts).neutral.wellFormed_iff]
    simp only [List.forall_mem_cons,List.forall_mem_append]
    exact ⟨ihopening,hinner.neutral.wellFormed_iff.mp ihinner,ihclosing,
      hts.neutral.wellFormed_iff.mp ih⟩

/-- What stands behind an open tag goes up to the closing of it. -/
theorem exists_closing {tag : String} {stack : List String} (hstep : Stepped ts)
    (hchildren : ∀ t ∈ ts, Derived (t.children.getD [])) (h : stackAfter (tag::stack) ts = some []) :
    ∃ inner c post, ts = inner ++ c::post ∧ Derived inner ∧ c.nesting = -1 ∧ c.tag = tag ∧
      stackAfter stack post = some [] := by
  induction hn : ts.length using Nat.strong_induction_on generalizing ts stack tag with
  | _ n ih =>
  subst hn
  cases ts with
  | nil => simp [stackAfter] at h
  | cons t ts =>
    obtain ⟨ht,hstep⟩ := List.forall_mem_cons.mp hstep
    obtain ⟨hown,hchildren⟩ := List.forall_mem_cons.mp hchildren
    rw [stackAfter,List.foldlM_cons] at h
    rcases ht with ht | ht | ht
    · by_cases htag : tag = t.tag
      · have hpop : stepStack (tag::stack) t = some stack := by simp [stepStack,ht,htag]
        rw [hpop] at h
        exact ⟨[],t,ts,rfl,.nil,ht,htag.symm,h⟩
      · have hnone : stepStack (tag::stack) t = none := by simp [stepStack,ht,htag]
        rw [hnone] at h
        cases h
    · have hstay : stepStack (tag::stack) t = some (tag::stack) := by simp [stepStack,ht]
      rw [hstay] at h
      obtain ⟨inner,c,post,rfl,hinner,hc⟩ := ih _ (by simp) hstep hchildren h rfl
      exact ⟨t::inner,c,post,rfl,.single ht hown hinner,hc⟩
    · -- the element that begins here is closed first
      have hpush : stepStack (tag::stack) t = some (t.tag::tag::stack) := if_pos ht
      rw [hpush] at h
      obtain ⟨first,d,rest,rfl,hfirst,hd,htag,hrest⟩ := ih _ (by simp) hstep hchildren h rfl
      simp only [List.forall_mem_append,List.forall_mem_cons] at hstep hchildren
      obtain ⟨inner,c,post,rfl,hinner,hc⟩ := ih _ (by simp; omega) hstep.2.2 hchildren.2.2 hrest rfl
      exact ⟨t::(first ++ d::inner),c,post,by simp,
        .element ht hd htag hown hfirst hchildren.2.1 hinner,hc⟩

theorem derived_of_stackAfter (hstep : Stepped ts)
    (hchildren : ∀ t ∈ ts, Derived (t.children.getD [])) (h : stackAfter [] ts = some []) :
    Derived ts := by
  induction hn : ts.length using Nat.strong_induction_on generalizing ts with
  | _ n ih =>
  subst hn
  cases ts with
  | nil => exact .nil
  | cons t ts =>
    obtain ⟨ht,hstep⟩ := List.forall_mem_cons.mp hstep
    obtain ⟨hown,hchildren⟩ := List.forall_mem_cons.mp hchildren
    rw [stackAfter,List.foldlM_cons] at h
    rcases ht with ht | ht | ht
    · have hnone : stepStack [] t = none := by simp [stepStack,ht]
      rw [hnone] at h
      cases h
    · have hstay : stepStack [] t = some [] := by simp [stepStack,ht]
      rw [hstay] at h
      exact .single ht hown (ih _ (by simp) hstep hchildren h rfl)
    · have hpush : stepStack [] t = some [t.tag] := if_pos ht
      rw [hpush] at h
      obtain ⟨inner,c,post,rfl,hinner,hc,htag,hpost⟩ := exists_closing hstep hchildren h
      simp only [List.forall_mem_append,List.forall_mem_cons] at hstep hchildren
      exact .element ht hc htag hown hinner hchildren.2.1
        (ih _ (by simp; omega) hstep.2.2 hchildren.2.2 hpost rfl)

theorem derived_of_wellFormed (hstep : AtEveryDepth Stepped ts) (h : wellFormed ts = true) :
    Derived ts := by
  induction hstep with
  | intro hts _ ih =>
    rw [wellFormed_eq_true_iff] at h
    exact derived_of_stackAfter hts (fun t ht => ih t ht (h.2 t ht)) h.1

end Derived

/-! The grammar and pairs of places. -/

section Spans

/-- An element goes from one place to another: closed tokens stand between its opening and its
closing. -/
def Spans (ts : List Token) (i j : Nat) : Prop :=
  ∃ pre o inner c post, ts = pre ++ o::(inner ++ c::post) ∧ Matches o inner c ∧ c.tag = o.tag ∧
    i = pre.length ∧ j = pre.length + (inner.length + 1)

theorem Spans.within (h : Spans mid i j) (pre post : List Token) :
    Spans (pre ++ (mid ++ post)) (pre.length + i) (pre.length + j) := by
  obtain ⟨front,o,inner,c,back,rfl,hmatch,htag,rfl,rfl⟩ := h
  exact ⟨pre ++ front,o,inner,c,back ++ post,by simp,hmatch,htag,by simp,by simp; omega⟩

theorem Spans.unique {k : Nat} (h : Spans ts i j) (h' : Spans ts i k) : j = k := by
  obtain ⟨pre,o,inner,c,post,rfl,hmatch,-,rfl,rfl⟩ := h
  obtain ⟨pre',o',inner',c',post',heq,hmatch',-,hlength,rfl⟩ := h'
  obtain ⟨rfl,hrest⟩ := List.append_inj heq hlength
  obtain ⟨-,hinner⟩ := List.cons_eq_cons.mp hrest
  obtain ⟨rfl,-,-⟩ :=
    hmatch.inner_closed.eq_of_append_cons hmatch'.inner_closed hmatch.closes hmatch'.closes hinner
  rfl

/-- An element that begins inside of another ends there. -/
theorem Spans.nested {k l : Nat} (h : Spans ts i j) (h' : Spans ts k l) (hik : i < k) (hkj : k < j) :
    l < j := by
  obtain ⟨pre,o,inner,c,post,rfl,hmatch,-,rfl,rfl⟩ := h
  obtain ⟨pre',o',inner',c',post',heq,hmatch',-,rfl,rfl⟩ := h'
  rcases List.append_eq_append_iff.mp heq with ⟨more,rfl,hmore⟩ | ⟨more,rfl,-⟩
  · cases more with
    | nil => simp at hik
    | cons u more =>
      obtain ⟨rfl,hinside⟩ := List.cons_eq_cons.mp hmore
      rcases List.append_eq_append_iff.mp hinside with ⟨rest,rfl,-⟩ | ⟨rest,rfl,hrest⟩
      · simp only [List.length_append,List.length_cons] at hkj
        omega
      · cases rest with
        | nil => simp at hkj
        | cons v rest =>
          obtain ⟨rfl,hback⟩ := List.cons_eq_cons.mp hrest
          obtain ⟨back,rfl,-⟩ :=
            hmatch.inner_closed.exists_matching hmatch'.opens hmatch'.inner_closed hback
          simp only [List.length_append,List.length_cons]
          omega
  · simp only [List.length_append] at hik
    omega

/-- Every opening of a stream of the grammar begins an element. -/
theorem Derived.exists_spans (h : Derived ts) (hi : ts[i]? = some o) (ho : o.nesting = 1) :
    ∃ j, Spans ts i j := by
  induction h generalizing i with
  | nil => simp at hi
  | @single t ts ht _ _ _ ih =>
    cases i with
    | zero =>
      cases hi
      omega
    | succ i =>
      obtain ⟨j,hj⟩ := ih hi
      have hwithin := hj.within [t] []
      exact ⟨1 + j,by simpa [Nat.add_comm] using hwithin⟩
  | @element o' inner c ts ho' hc htag _ hinner _ _ _ ihinner _ ih =>
    cases i with
    | zero => exact ⟨inner.length + 1,[],o',inner,c,ts,rfl,⟨ho',hinner.closed,hc⟩,htag,rfl,by simp⟩
    | succ i =>
      rw [List.getElem?_cons_succ,List.getElem?_append] at hi
      split at hi
      · obtain ⟨j,hj⟩ := ihinner hi
        have hwithin := hj.within [o'] (c::ts)
        exact ⟨1 + j,by simpa [Nat.add_comm] using hwithin⟩
      · rename_i hle
        obtain ⟨k,rfl⟩ := Nat.exists_eq_add_of_le (Nat.le_of_not_lt hle)
        rw [Nat.add_sub_cancel_left] at hi
        cases k with
        | zero =>
          cases hi
          omega
        | succ k =>
          obtain ⟨j,hj⟩ := ih hi
          have hwithin := hj.within (o'::(inner ++ [c])) []
          refine ⟨(o'::(inner ++ [c])).length + j,?_⟩
          have hplace : inner.length + (k + 1) + 1 = (o'::(inner ++ [c])).length + k := by
            simp
            omega
          rw [hplace]
          simpa using hwithin

theorem Derived.isPairing (h : Derived ts) : IsPairing ts (Spans ts) where
  closes i j hspans := by
    obtain ⟨pre,o,inner,c,post,rfl,hmatch,htag,rfl,rfl⟩ := hspans
    exact ⟨by omega,o,c,by simp,by simp,hmatch.opens,hmatch.closes,htag⟩
  unique i o hi ho := by
    obtain ⟨j,hj⟩ := h.exists_spans hi ho
    exact ⟨j,hj,fun k hk => hk.unique hj⟩
  nested i j k l hij hkl hik hkj := hij.nested hkl hik hkj

end Spans

section Pairing
variable {pairs : Nat → Nat → Prop}

theorem getElem?_window {k : Nat} (hk : k < mid.length) :
    (pre ++ (mid ++ post))[pre.length + k]? = mid[k]? := by
  rw [List.getElem?_append_right (Nat.le_add_right _ _),Nat.add_sub_cancel_left,
    List.getElem?_append_left hk]

/-- Some neighbouring tokens whose pairs do not reach beyond them are paired among themselves. -/
theorem IsPairing.window (h : IsPairing (pre ++ (mid ++ post)) pairs) (hin : ∀ i j, i < mid.length →
    pairs (pre.length + i) j → j < pre.length + mid.length) :
    IsPairing mid (fun i j => i < mid.length ∧ pairs (pre.length + i) (pre.length + j)) := by
  refine ⟨fun i j hpair => ?_,fun i o hi ho => ?_,fun i j k l hij hkl hik hkj => ?_⟩
  · have hj : j < mid.length := by
      have hbound := hin i _ hpair.1 hpair.2
      omega
    obtain ⟨hlt,o,c,ho,hc,hrest⟩ := h.closes _ _ hpair.2
    rw [getElem?_window hpair.1] at ho
    rw [getElem?_window hj] at hc
    exact ⟨by omega,o,c,ho,hc,hrest⟩
  · have hlength : i < mid.length := (List.getElem?_eq_some_iff.mp hi).1
    obtain ⟨j,hj,hunique⟩ := h.unique (pre.length + i) o ((getElem?_window hlength).trans hi) ho
    obtain ⟨k,rfl⟩ : ∃ k, j = pre.length + k := ⟨j - pre.length,by have := (h.closes _ _ hj).1; omega⟩
    exact ⟨k,⟨hlength,hj⟩,fun l hl => Nat.add_left_cancel (hunique _ hl.2)⟩
  · have hbound := h.nested _ _ _ _ hij.2 hkl.2 (by omega) (by omega)
    omega

/-- The tokens behind one that opens nothing are paired among themselves. -/
theorem IsPairing.tail (h : IsPairing (t::ts) pairs) :
    IsPairing ts (fun i j => i < ts.length ∧ pairs (1 + i) (1 + j)) := by
  have hall : IsPairing ([t] ++ (ts ++ [])) pairs := by simpa using h
  refine hall.window fun i j _ hpair => ?_
  obtain ⟨-,-,c,-,hc,-⟩ := h.closes _ _ hpair
  have hj := (List.getElem?_eq_some_iff.mp hc).1
  rw [List.length_cons] at hj
  rw [List.length_singleton]
  omega

/-- An opening has its closing with paired tokens between the two and behind. -/
theorem IsPairing.exists_element (h : IsPairing (o::ts) pairs) (ho : o.nesting = 1) :
    ∃ inner c post, ts = inner ++ c::post ∧ c.nesting = -1 ∧ c.tag = o.tag ∧
      (∀ j, pairs 0 j → j = inner.length + 1) ∧
      IsPairing inner (fun i j => i < inner.length ∧ pairs (1 + i) (1 + j)) ∧
      IsPairing post (fun i j => i < post.length ∧
        pairs (inner.length + 2 + i) (inner.length + 2 + j)) := by
  obtain ⟨j,hj,hunique⟩ := h.unique 0 o rfl ho
  obtain ⟨hlt,_,c,hfirst,hclose,-,hc,htag⟩ := h.closes 0 j hj
  cases hfirst
  obtain ⟨k,rfl⟩ : ∃ k, j = k + 1 := ⟨j - 1,by omega⟩
  rw [List.getElem?_cons_succ,List.getElem?_eq_some_iff] at hclose
  obtain ⟨hk,hget⟩ := hclose
  obtain ⟨inner,post,rfl,rfl⟩ : ∃ inner post, ts = inner ++ c::post ∧ inner.length = k :=
    ⟨ts.take k,ts.drop (k + 1),by rw [← hget,List.getElem_cons_drop,List.take_append_drop],
      List.length_take_of_le (Nat.le_of_lt hk)⟩
  have hinner : IsPairing ([o] ++ (inner ++ c::post)) pairs := h
  have hpost : IsPairing (o::(inner ++ [c]) ++ (post ++ [])) pairs := by simpa using h
  refine ⟨inner,c,post,rfl,hc,htag,hunique,hinner.window fun i l hi hpair => ?_,?_⟩
  · rw [List.length_singleton] at hpair ⊢
    have hnested := h.nested 0 _ _ l hj hpair (by omega) (by omega)
    omega
  · have hwindow := hpost.window fun i l _ hpair => by
      obtain ⟨-,-,d,-,hd,-⟩ := h.closes _ _ hpair
      have hl := (List.getElem?_eq_some_iff.mp hd).1
      simp at hl ⊢
      omega
    simpa using hwindow

/-- Pairs that are elements behind a token that stands for itself are elements. -/
theorem IsPairing.spans_single (h : IsPairing (t::ts) pairs) (ht : t.nesting = 0)
    (hspans : ∀ i j, i < ts.length ∧ pairs (1 + i) (1 + j) → Spans ts i j) (hpair : pairs i j) :
    Spans (t::ts) i j := by
  obtain ⟨hlt,o,c,ho,-,hopens,-⟩ := h.closes i j hpair
  cases i with
  | zero =>
    cases ho
    omega
  | succ i =>
    obtain ⟨j,rfl⟩ : ∃ k, j = 1 + k := ⟨j - 1,by omega⟩
    rw [Nat.add_comm i] at hpair ⊢
    have hi := (List.getElem?_eq_some_iff.mp ho).1
    simpa using (hspans i j ⟨by simpa using hi,hpair⟩).within [t] []

/-- Pairs that are elements inside and behind an element are elements. -/
theorem IsPairing.spans_element (h : IsPairing (o::(inner ++ c::post)) pairs) (hmatch : Matches o inner c)
    (htag : c.tag = o.tag) (hfirst : ∀ j, pairs 0 j → j = inner.length + 1)
    (hinner : ∀ i j, i < inner.length ∧ pairs (1 + i) (1 + j) → Spans inner i j)
    (hpost : ∀ i j, i < post.length ∧ pairs (inner.length + 2 + i) (inner.length + 2 + j) →
      Spans post i j) (hpair : pairs i j) : Spans (o::(inner ++ c::post)) i j := by
  obtain ⟨hlt,d,-,hd,-,hopens,-⟩ := h.closes i j hpair
  have hi := (List.getElem?_eq_some_iff.mp hd).1
  simp only [List.length_cons,List.length_append] at hi
  have hplace : i = 0 ∨ (0 < i ∧ i < 1 + inner.length) ∨ i = inner.length + 1 ∨
      inner.length + 2 ≤ i := by omega
  rcases hplace with rfl | ⟨hpos,hk⟩ | rfl | hfar
  · rw [hfirst j hpair]
    exact ⟨[],o,inner,c,post,rfl,hmatch,htag,rfl,by simp⟩
  · obtain ⟨k,rfl⟩ : ∃ k, i = 1 + k := ⟨i - 1,by omega⟩
    obtain ⟨l,rfl⟩ : ∃ l, j = 1 + l := ⟨j - 1,by omega⟩
    exact (hinner k l ⟨by omega,hpair⟩).within [o] (c::post)
  · have hclosing : c = d := by simpa using hd
    have hcloses := hmatch.closes
    subst hclosing
    omega
  · obtain ⟨k,rfl⟩ := Nat.exists_eq_add_of_le hfar
    obtain ⟨l,rfl⟩ := Nat.exists_eq_add_of_le (Nat.le_trans hfar (Nat.le_of_lt hlt))
    simpa using (hpost k l ⟨by omega,hpair⟩).within (o::(inner ++ [c])) []

/-- Tokens whose openings are paired open no more than they close. When they close no more either, they
are a stream of the grammar, and each pair is an opening with the closing that matches it. -/
theorem IsPairing.derived (h : IsPairing ts pairs) (hstep : Stepped ts)
    (hchildren : ∀ t ∈ ts, Derived (t.children.getD [])) :
    nestingSum ts ≤ 0 ∧
      (0 ≤ nestingSum ts → Derived ts ∧ ∀ i j, pairs i j → Spans ts i j) := by
  induction hn : ts.length using Nat.strong_induction_on generalizing ts pairs with
  | _ n ih =>
  subst hn
  cases ts with
  | nil =>
    refine ⟨Int.le_refl _,fun _ => ⟨.nil,fun i j hpair => ?_⟩⟩
    obtain ⟨-,o,c,ho,-⟩ := h.closes i j hpair
    simp at ho
  | cons t ts =>
    obtain ⟨ht,hstep⟩ := List.forall_mem_cons.mp hstep
    obtain ⟨hown,hchildren⟩ := List.forall_mem_cons.mp hchildren
    rw [nestingSum_cons]
    rcases ht with ht | ht | ht
    · obtain ⟨hsum,-⟩ := ih _ (by simp) h.tail hstep hchildren rfl
      exact ⟨by omega,fun hnonneg => by omega⟩
    · obtain ⟨hsum,hderived⟩ := ih _ (by simp) h.tail hstep hchildren rfl
      refine ⟨by omega,fun hnonneg => ?_⟩
      obtain ⟨hts,hspans⟩ := hderived (by omega)
      exact ⟨.single ht hown hts,fun i j hpair => h.spans_single ht hspans hpair⟩
    · obtain ⟨inner,c,post,rfl,hc,htag,hfirst,hinner,hpost⟩ := h.exists_element ht
      simp only [List.forall_mem_append,List.forall_mem_cons] at hstep hchildren
      have hshort : inner.length < (t::(inner ++ c::post)).length ∧
          post.length < (t::(inner ++ c::post)).length := by
        simp only [List.length_cons,List.length_append]
        omega
      obtain ⟨hsum,hderived⟩ := ih _ hshort.1 hinner hstep.1 hchildren.1 rfl
      obtain ⟨hsum',hderived'⟩ := ih _ hshort.2 hpost hstep.2.2 hchildren.2.2 rfl
      rw [nestingSum_append,nestingSum_cons]
      refine ⟨by omega,fun hnonneg => ?_⟩
      obtain ⟨hin,hspans⟩ := hderived (by omega)
      obtain ⟨hbehind,hspans'⟩ := hderived' (by omega)
      exact ⟨.element ht hc htag hown hin hchildren.2.1 hbehind,fun i j hpair =>
        h.spans_element ⟨ht,hin.closed,hc⟩ htag hfirst hspans hspans' hpair⟩

/-- Tokens that are paired, with no more closings than openings, are a stream of the grammar. -/
theorem Pairable.derived (h : Pairable ts) (hstep : Stepped ts)
    (hchildren : ∀ t ∈ ts, Derived (t.children.getD [])) : Derived ts := by
  obtain ⟨pairs,hpairs,-⟩ := h.pairing
  exact ((hpairs.derived hstep hchildren).2 (h.nonneg ts (List.prefix_refl ts))).1

theorem Derived.pairable (h : Derived ts) (hstep : Stepped ts) : Pairable ts := by
  refine ⟨h.closed.nonneg,Spans ts,h.isPairing,fun pairs hpairs => ?_⟩
  obtain ⟨-,hderived⟩ := hpairs.derived hstep h.children
  obtain ⟨-,hspans⟩ := hderived (Int.le_of_eq h.closed.sum_eq.symm)
  funext i j
  refine propext ⟨hspans i j,fun hspan => ?_⟩
  -- the opening has a closing in the other pairing, too, and that one matches it as well
  obtain ⟨-,o,-,ho,-,hopens,-⟩ := h.isPairing.closes i j hspan
  obtain ⟨k,hk,-⟩ := hpairs.unique i o ho hopens
  rwa [hspan.unique (hspans i k hk)]

end Pairing

/-! At every depth. -/

theorem Derived.everywhere_pairable (h : Derived ts) (hstep : AtEveryDepth Stepped ts) :
    AtEveryDepth Pairable ts := by
  induction hstep with
  | intro hts _ ih => exact .intro (h.pairable hts) fun t ht => ih t ht (h.children t ht)

theorem derived_of_everywhere_pairable (h : AtEveryDepth Pairable ts) (hstep : AtEveryDepth Stepped ts) :
    Derived ts := by
  induction hstep with
  | intro hts _ ih =>
    cases h with
    | intro hpairable hchildren => exact hpairable.derived hts fun t ht => ih t ht (hchildren t ht)

/-- The check accepts exactly the streams of the grammar, and these are the streams in which, at every
depth, openings and closings are paired. -/
theorem wellFormed_iff_derived (hstep : AtEveryDepth Stepped ts) :
    (wellFormed ts = true ↔ Derived ts) ∧ (wellFormed ts = true ↔ AtEveryDepth Pairable ts) := by
  have hderived : wellFormed ts = true ↔ Derived ts :=
    ⟨derived_of_wellFormed hstep,Derived.wellFormed⟩
  refine ⟨hderived,hderived.trans ⟨fun h => h.everywhere_pairable hstep,fun h => ?_⟩⟩
  exact derived_of_everywhere_pairable h hstep

/-- A paragraph in a quote, with an emphasis that is closed inside of a strong one, and with one that is
closed behind it. -/
theorem wellFormed_iff_derived_emphasis :
    let quote := fun children => quoteOf 0 (paragraphOf 1 [] children)
    let nested := quote [make "strong_open" "strong" 1,make "em_open" "em" 1,ofText ['x'],
      make "em_close" "em" (-1),make "strong_close" "strong" (-1)]
    let crossing := quote [make "strong_open" "strong" 1,make "em_open" "em" 1,ofText ['x'],
      make "strong_close" "strong" (-1),make "em_close" "em" (-1)]
    AtEveryDepth Stepped nested ∧ Derived nested ∧ AtEveryDepth Pairable nested ∧
      AtEveryDepth Stepped crossing ∧ ¬Derived crossing ∧ ¬AtEveryDepth Pairable crossing := by
  intro quote nested crossing
  have hnone : AtEveryDepth Stepped [] := .intro (by simp [Stepped]) (by simp)
  have hquote : ∀ children, AtEveryDepth Stepped children → AtEveryDepth Stepped (quote children) := by
    intro children hchildren
    refine .intro ?_ ?_
    · simp [Stepped,quote,quoteOf,paragraphOf,blockToken,make]
    · simpa [quote,quoteOf,paragraphOf,blockToken,make] using ⟨hnone,hchildren,hnone⟩
  have hnested : AtEveryDepth Stepped nested :=
    hquote _ (.intro (by simp [Stepped,make,ofText]) (by simpa [make,ofText] using hnone))
  have hcrossing : AtEveryDepth Stepped crossing :=
    hquote _ (.intro (by simp [Stepped,make,ofText]) (by simpa [make,ofText] using hnone))
  have hyes : wellFormed nested = true := by decide
  have hno : ¬wellFormed crossing = true := by decide
  exact ⟨hnested,(wellFormed_iff_derived hnested).1.mp hyes,(wellFormed_iff_derived hnested).2.mp hyes,
    hcrossing,(wellFormed_iff_derived hcrossing).1.not.mp hno,
    (wellFormed_iff_derived hcrossing).2.not.mp hno⟩

end Token
end Longform
