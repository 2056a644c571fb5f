import Mathlib.Data.List.Basic
import Longform.Markdown.Abbreviation
import Longform.Proofs.Text.Search

/-! Reading a text for terms. A scan derives the occurrences from the stretches that were passed
without one, and a passed stretch holds no term of its own when the text is cut at its ends. -/
namespace Longform
namespace Abbreviation

section Order

variable {term t : Text} {ts : List Text}

theorem mem_insertByLength_iff : t ∈ insertByLength term ts ↔ t = term ∨ t ∈ ts := by
  induction ts with
  | nil => simp [insertByLength]
  | cons u ts ih =>
    rw [insertByLength]
    split
    · rw [List.mem_cons,ih,List.mem_cons]
      exact or_left_comm
    · rw [List.mem_cons]

theorem mem_byLength_iff : t ∈ byLength ts ↔ t ∈ ts := by
  have hfold : ∀ acc : List Text, t ∈ ts.foldl (fun acc u => insertByLength u acc) acc ↔
      t ∈ acc ∨ t ∈ ts := by
    induction ts with
    | nil => simp
    | cons u ts ih =>
      intro acc
      rw [List.foldl_cons,ih,mem_insertByLength_iff,List.mem_cons]
      exact ⟨fun h => by tauto,fun h => by tauto⟩
  rw [byLength,hfold]
  simp

end Order

section Place

variable {terms : List Text} {before : Option Char} {term t s : Text}

/-- A term stands between word boundaries, with `before` in front of it and `s` behind it. -/
def Bounded (before : Option Char) (term s : Text) : Prop :=
  isBoundary before (term ++ s).head? = true ∧ isBoundary (term.getLast?.or before) s.head? = true

theorem termAt?_eq_none_iff :
    termAt? before terms t = none ↔ ∀ term ∈ terms, ∀ s, t = term ++ s → ¬Bounded before term s := by
  rw [termAt?,List.findSome?_eq_none_iff]
  refine forall₂_congr fun term _ => ?_
  rcases ha : Text.after? term t with _ | r
  · have hnone : ∀ s, t ≠ term ++ s := fun s hs => by
      simp [Text.after?_eq_some_iff.mpr hs] at ha
    simp [hnone]
  · obtain rfl := Text.after?_eq_some_iff.mp ha
    simp [Bounded]

theorem eq_append_of_termAt? (h : termAt? before terms t = some (term,s)) :
    term ∈ terms ∧ t = term ++ s ∧ Bounded before term s := by
  obtain ⟨u,hu,h⟩ := List.exists_of_findSome?_eq_some h
  rcases ha : Text.after? u t with _ | r <;> rw [ha] at h
  · exact nomatch h
  obtain rfl := Text.after?_eq_some_iff.mp ha
  simp only [Option.ite_none_right_eq_some,Bool.and_eq_true,Option.some.injEq,Prod.mk.injEq] at h
  obtain ⟨hbounds,rfl,rfl⟩ := h
  exact ⟨hu,rfl,hbounds⟩

end Place

section Passed

variable {terms : List Text} {before before' : Option Char} {p s : Text}

/-- No term stands at a place of `p`, in a text that goes on with `s`. -/
def Passed (terms : List Text) : Option Char → Text → Text → Prop
  | _, [], _ => True
  | before, c :: p, s => termAt? before terms (c::p ++ s) = none ∧ Passed terms (some c) p s

/-- A passed stretch can be taken out of its text: the ends of the stretch have word boundaries only
where the text has them, too. -/
theorem Passed.alone (hne : [] ∉ terms) (h : Passed terms before p s)
    (hstart : isBoundary before' p.head? = true → isBoundary before p.head? = true)
    (hstop : isBoundary p.getLast? none = true → isBoundary p.getLast? s.head? = true) :
    Passed terms before' p [] := by
  induction p generalizing before before' with
  | nil => trivial
  | cons c p ih =>
    obtain ⟨hhere,hrest⟩ := h
    refine ⟨?_,?_⟩
    · rw [termAt?_eq_none_iff] at hhere ⊢
      rintro term hterm r hr ⟨hfirst,hlast⟩
      rw [List.append_nil] at hr
      have hterm_ne : term ≠ [] := fun hnil => hne (hnil ▸ hterm)
      refine hhere term hterm (r ++ s) (by rw [hr,List.append_assoc]) ⟨?_,?_⟩
      · rw [← List.append_assoc,← hr]
        exact hstart (by rwa [← hr] at hfirst)
      · obtain ⟨d,hd⟩ := Option.ne_none_iff_exists'.mp (List.getLast?_eq_none_iff.not.mpr hterm_ne)
        rw [hd,Option.some_or] at hlast ⊢
        cases r with
        | nil =>
          rw [List.append_nil] at hr
          rw [hr,hd] at hstop
          exact hstop hlast
        | cons e r => exact hlast
    · cases p with
      | nil => trivial
      | cons d p => exact ih hrest id (by simpa using hstop)

end Passed

/-- The occurrences of terms in a text, from left to right: a stretch without terms and, if it does
not reach the end, the term that ends it. -/
inductive Scan (terms : List Text) : Nat → Option Char → Text → List (Nat × Text) → Prop
  | free {pos before t} : Passed terms before t [] → Scan terms pos before t []
  | found {pos before p term s occs} : Passed terms before p (term ++ s) →
      termAt? (p.getLast?.or before) terms (term ++ s) = some (term,s) →
      Scan terms (pos + p.length + term.length) term.getLast? s occs →
      Scan terms pos before (p ++ (term ++ s)) ((pos + p.length,term)::occs)

section Scan

variable {terms : List Text} {pos : Nat} {before : Option Char} {t : Text}
  {occs : List (Nat × Text)}

/-- A place without a term makes the first stretch longer. -/
theorem Scan.cons {c : Char} (hc : termAt? before terms (c::t) = none)
    (h : Scan terms (pos+1) (some c) t occs) : Scan terms pos before (c::t) occs := by
  cases h with
  | free hfree => exact .free ⟨by simpa using hc,hfree⟩
  | @found _ _ p term s occs hp hterm hrest =>
    have hlen : pos + 1 + p.length = pos + (c::p).length := by
      rw [List.length_cons]
      omega
    have hlast : p.getLast?.or (some c) = (c::p).getLast?.or before := by
      cases p with
      | nil => rfl
      | cons d p =>
        rw [List.getLast?_cons_cons,List.getLast?_eq_some_getLast (List.cons_ne_nil d p)]
        rfl
    rw [hlen] at hrest ⊢
    rw [hlast] at hterm
    exact .found (p := c::p) ⟨hc,hp⟩ hterm hrest

theorem any_isEmpty_eq_false (hne : [] ∉ terms) : terms.any List.isEmpty = false := by
  rw [List.any_eq_false]
  intro term hterm hnil
  exact hne (List.isEmpty_iff.mp hnil ▸ hterm)

theorem occurrencesFrom_nil (hne : [] ∉ terms) (fuel : Nat) :
    occurrencesFrom terms fuel pos before [] = [] := by
  cases fuel <;> simp [occurrencesFrom,any_isEmpty_eq_false hne]

theorem scan_occurrencesFrom (hne : [] ∉ terms) {fuel : Nat} (hfuel : t.length < fuel) :
    Scan terms pos before t (occurrencesFrom terms fuel pos before t) := by
  induction fuel generalizing pos before t with
  | zero => exact absurd hfuel (Nat.not_lt_zero _)
  | succ fuel ih =>
    cases t with
    | nil =>
      rw [occurrencesFrom_nil hne]
      exact .free trivial
    | cons c r =>
      rw [List.length_cons] at hfuel
      rw [occurrencesFrom]
      rcases hterm : termAt? before terms (c::r) with _ | ⟨term,s⟩
      · exact Scan.cons hterm (ih (by omega))
      · obtain ⟨hmem,happ,_⟩ := eq_append_of_termAt? hterm
        have hterm_ne : term ≠ [] := fun hnil => hne (hnil ▸ hmem)
        have hlen := congrArg List.length happ
        have hpos := List.length_pos_iff.mpr hterm_ne
        rw [List.length_append,List.length_cons] at hlen
        simp only [List.isEmpty_iff,hterm_ne,if_false]
        rw [happ] at hterm ⊢
        exact .found (p := []) trivial (by simpa using hterm) (ih (by omega))

/-- A text without terms at any place has no occurrences. -/
theorem occurrencesFrom_eq_nil (hne : [] ∉ terms) (fuel : Nat) (h : Passed terms before t []) :
    occurrencesFrom terms fuel pos before t = [] := by
  induction fuel generalizing pos before t with
  | zero => rfl
  | succ fuel ih =>
    cases t with
    | nil => exact occurrencesFrom_nil hne _
    | cons c r =>
      obtain ⟨hc,hr⟩ := h
      rw [List.append_nil] at hc
      rw [occurrencesFrom,hc]
      exact ih hr

end Scan
end Abbreviation
end Longform
