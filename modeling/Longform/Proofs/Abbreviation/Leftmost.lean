import Mathlib.Data.List.Forall2
import Longform.Proofs.Abbreviation.Settled
import Longform.Proofs.Dictionary
import Longform.Proofs.Token.Balance

/-! What wrapping the terms makes of a stream. A text is read from left to right: at the first place
where a term stands between word boundaries the longest such term is wrapped, and reading goes on behind
it. Nothing else is said about the terms, so their order does not matter. -/
namespace Longform
namespace Abbreviation

/-- A term stands in a text between `front` and `back`: words begin or end at both of its ends. -/
structure Stands (terms : List Text) (front term back : Text) : Prop where
  mem : term ∈ terms
  starts : isBoundary front.getLast? (term ++ back).head? = true
  stops : isBoundary (front ++ term).getLast? back.head? = true

/-- Some term stands in a text that follows `front`. -/
def Holds (terms : List Text) (front t : Text) : Prop :=
  ∃ p term s, t = p ++ (term ++ s) ∧ Stands terms (front ++ p) term s

/-- Of the terms that stand in the text `p ++ (term ++ s)` behind `front`, none stands before `term`, and
none that stands at its place is longer. -/
structure Leads (terms : List Text) (front p term s : Text) : Prop where
  stands : Stands terms (front ++ p) term s
  leftmost : ∀ p' term' s', p ++ (term ++ s) = p' ++ (term' ++ s') →
    Stands terms (front ++ p') term' s' → p.length ≤ p'.length
  longest : ∀ term' s', term ++ s = term' ++ s' → Stands terms (front ++ p) term' s' →
    term'.length ≤ term.length

/-- An abbreviation element around a term, with the expansion as its title. -/
def abbreviated (expansion term : Text) : List Token :=
  [{ Token.make "abbr_open" "abbr" 1 with attrs := [("title".toList,.text expansion)] },
    Token.ofText term,
    Token.make "abbr_close" "abbr" (-1)]

theorem wrap_eq (expansion term : Text) : wrap expansion term = abbreviated expansion term := rfl

/-- The tokens that reading a text from left to right gives, when `front` has been read. -/
inductive Reading (expansions : Dictionary Text) : Text → Text → List Token → Prop
  | free {front t} : ¬Holds expansions.keys front t → Reading expansions front t (piece t)
  | found {front p term s expansion ts} : Leads expansions.keys front p term s →
      expansions.find? term = some expansion →
      Reading expansions (front ++ p ++ term) s ts →
      Reading expansions front (p ++ (term ++ s)) (piece p ++ abbreviated expansion term ++ ts)

/-- What becomes of a text token: one without terms stays as it is. -/
inductive Wrapped (expansions : Dictionary Text) (t : Token) : List Token → Prop
  | free : ¬Holds expansions.keys [] t.content → Wrapped expansions t [t]
  | found {ts} : Holds expansions.keys [] t.content → Reading expansions [] t.content ts →
      Wrapped expansions t ts

/-- What becomes of the content of a block, inside some abbreviation elements: the texts that no such
element encloses are wrapped. -/
inductive Rewritten (expansions : Dictionary Text) : Int → List Token → List Token → Prop
  | nil {depth} : Rewritten expansions depth [] []
  | keep {depth t cs cs'} : (t.kind = "text" → 0 < depthBehind depth t) →
      Rewritten expansions (depthBehind depth t) cs cs' →
      Rewritten expansions depth (t::cs) (t::cs')
  | text {depth t ts cs cs'} : t.kind = "text" → depthBehind depth t ≤ 0 →
      Wrapped expansions t ts → Rewritten expansions (depthBehind depth t) cs cs' →
      Rewritten expansions depth (t::cs) (ts ++ cs')

/-- What becomes of a token of a stream: only visible inline content changes. -/
inductive Replaced (expansions : Dictionary Text) : Token → Token → Prop
  | keep {t} : t.isVisibleInline = false → Replaced expansions t t
  | inline {t cs cs'} : t.isVisibleInline = true → t.children = some cs →
      Rewritten expansions 0 cs cs' → Replaced expansions t { t with children := some cs' }

/-! Each of these says what the outcome is. -/

section Unique

variable {expansions : Dictionary Text} {front t p term s : Text} {ts us : List Token}

theorem Leads.holds {terms : List Text} (h : Leads terms front p term s) :
    Holds terms front (p ++ (term ++ s)) := ⟨p,term,s,rfl,h.stands⟩

theorem Leads.unique {terms : List Text} {p' term' s' : Text} (h : Leads terms front p term s)
    (h' : Leads terms front p' term' s') (heq : p ++ (term ++ s) = p' ++ (term' ++ s')) :
    p = p' ∧ term = term' ∧ s = s' := by
  have hplace : p.length = p'.length :=
    Nat.le_antisymm (h.leftmost p' term' s' heq h'.stands) (h'.leftmost p term s heq.symm h.stands)
  obtain ⟨rfl,hrest⟩ := List.append_inj heq hplace
  have hlength : term.length = term'.length :=
    Nat.le_antisymm (h'.longest term s hrest.symm h.stands) (h.longest term' s' hrest h'.stands)
  exact ⟨rfl,List.append_inj hrest hlength⟩

theorem Reading.unique (h : Reading expansions front t ts) (h' : Reading expansions front t us) :
    ts = us := by
  induction h generalizing us with
  | @free front t hfree =>
    cases h' with
    | free => rfl
    | found hleads => exact absurd hleads.holds hfree
  | @found front p term s expansion ts hleads hfind _ ih =>
    generalize ht : p ++ (term ++ s) = t at h'
    cases h' with
    | free hfree => exact absurd (ht ▸ hleads.holds) hfree
    | found hleads' hfind' hrest' =>
      obtain ⟨rfl,rfl,rfl⟩ := hleads.unique hleads' ht
      rw [hfind,Option.some.injEq] at hfind'
      rw [hfind',ih hrest']

theorem Wrapped.unique {t : Token} (h : Wrapped expansions t ts) (h' : Wrapped expansions t us) :
    ts = us := by
  cases h with
  | free hfree =>
    cases h' with
    | free => rfl
    | found hholds => exact absurd hholds hfree
  | found hholds hread =>
    cases h' with
    | free hfree => exact absurd hholds hfree
    | found _ hread' => exact hread.unique hread'

theorem Rewritten.unique {depth : Int} {cs : List Token} (h : Rewritten expansions depth cs ts)
    (h' : Rewritten expansions depth cs us) : ts = us := by
  induction h generalizing us with
  | nil =>
    cases h'
    rfl
  | keep hkeep _ ih =>
    cases h' with
    | keep _ hrest => rw [ih hrest]
    | text hkind hdepth => exact absurd (hkeep hkind) (Int.not_lt.mpr hdepth)
  | text hkind hdepth hwrapped _ ih =>
    cases h' with
    | keep hkeep => exact absurd (hkeep hkind) (Int.not_lt.mpr hdepth)
    | text _ _ hwrapped' hrest => rw [hwrapped.unique hwrapped',ih hrest]

theorem Replaced.unique {t u v : Token} (h : Replaced expansions t u) (h' : Replaced expansions t v) :
    u = v := by
  cases h with
  | keep hhidden =>
    cases h' with
    | keep => rfl
    | inline hvisible => simp [hhidden] at hvisible
  | inline hvisible hchildren hrest =>
    cases h' with
    | keep hhidden => simp [hhidden] at hvisible
    | inline _ hchildren' hrest' =>
      rw [hchildren,Option.some.injEq] at hchildren'
      subst hchildren'
      rw [hrest.unique hrest']

end Unique

/-! Wrapping is such an outcome. -/

section Found

variable {terms : List Text} {before : Option Char} {front back term t p s : Text}

theorem stands_iff :
    Stands terms front term back ↔ term ∈ terms ∧ Bounded front.getLast? term back := by
  constructor
  · rintro ⟨hmem,hstart,hstop⟩
    rw [List.getLast?_append] at hstop
    exact ⟨hmem,hstart,hstop⟩
  · rintro ⟨hmem,hstart,hstop⟩
    exact ⟨hmem,hstart,by rwa [List.getLast?_append]⟩

theorem stands_byLength : Stands (byLength terms) front term back ↔ Stands terms front term back := by
  rw [stands_iff,stands_iff,mem_byLength_iff]

theorem pairwise_insertByLength (h : terms.Pairwise fun t u => u.length ≤ t.length) :
    (insertByLength term terms).Pairwise fun t u => u.length ≤ t.length := by
  induction terms with
  | nil => simp [insertByLength]
  | cons u terms ih =>
    obtain ⟨hu,hterms⟩ := List.pairwise_cons.mp h
    rw [insertByLength]
    split
    · rename_i hle
      refine List.pairwise_cons.mpr ⟨fun t ht => ?_,ih hterms⟩
      rcases mem_insertByLength_iff.mp ht with rfl | ht
      · exact hle
      · exact hu t ht
    · rename_i hlt
      refine List.pairwise_cons.mpr ⟨fun t ht => ?_,h⟩
      rcases List.mem_cons.mp ht with rfl | ht
      · omega
      · have hle := hu t ht
        omega

theorem pairwise_byLength (terms : List Text) :
    (byLength terms).Pairwise fun t u => u.length ≤ t.length := by
  have hfold : ∀ acc : List Text, (acc.Pairwise fun t u => u.length ≤ t.length) →
      (terms.foldl (fun acc u => insertByLength u acc) acc).Pairwise
        fun t u => u.length ≤ t.length := by
    induction terms with
    | nil => exact fun _ h => h
    | cons u terms ih => exact fun acc h => ih _ (pairwise_insertByLength h)
  exact hfold [] .nil

/-- The first term that stands where a text begins is the longest, when longer terms come first. -/
theorem length_le_of_termAt? (hterms : terms.Pairwise fun t u => u.length ≤ t.length)
    (h : termAt? before terms t = some (term,s)) {term' s' : Text} (hmem : term' ∈ terms)
    (ht : t = term' ++ s') (hbounded : Bounded before term' s') : term'.length ≤ term.length := by
  have hboth : (isBoundary before t.head? && isBoundary (term'.getLast?.or before) s'.head?) = true :=
    Bool.and_eq_true_iff.mpr (ht ▸ hbounded)
  obtain ⟨passed,u,rest,rfl,hu,hpassed⟩ := List.findSome?_eq_some_iff.mp h
  have hterm : u = term := by
    rcases ha : Text.after? u t with _ | r <;> rw [ha] at hu
    · exact nomatch hu
    simp only [Option.ite_none_right_eq_some,Option.some.injEq,Prod.mk.injEq] at hu
    exact hu.2.1
  subst hterm
  have hafter : Text.after? term' t = some s' := Text.after?_eq_some_iff.mpr ht
  rcases List.mem_append.mp hmem with hmem | hmem
  · have hnone := hpassed term' hmem
    simp only [hafter,hboth,if_true] at hnone
    cases hnone
  · rcases List.mem_cons.mp hmem with rfl | hmem
    · exact Nat.le_refl _
    · exact (List.pairwise_cons.mp (List.pairwise_append.mp hterms).2.1).1 term' hmem

/-- No term stands at a place of a stretch that was passed. -/
theorem Passed.not_stands (h : Passed terms front.getLast? p t) {p' term' s' : Text}
    (ht : p ++ t = p' ++ (term' ++ s')) (hlt : p'.length < p.length) :
    ¬Stands terms (front ++ p') term' s' := by
  induction p generalizing front p' with
  | nil => exact absurd hlt (Nat.not_lt_zero _)
  | cons c p ih =>
    obtain ⟨hhere,hrest⟩ := h
    cases p' with
    | nil =>
      intro hstands
      rw [List.append_nil,stands_iff] at hstands
      exact termAt?_eq_none_iff.mp hhere term' hstands.1 s' ht hstands.2
    | cons d p' =>
      obtain ⟨rfl,hrest_eq⟩ := List.cons_eq_cons.mp ht
      have hlast : (front ++ [c]).getLast? = some c := by simp
      rw [← hlast] at hrest
      rw [List.append_cons]
      exact ih hrest hrest_eq (Nat.lt_of_succ_lt_succ hlt)

end Found

section Outcome

variable {expansions : Dictionary Text}

/-- An occurrence that a scan finds is the longest of the leftmost ones. -/
theorem leads_of_termAt? {terms : List Text} {front p term s : Text}
    (hp : Passed (byLength terms) front.getLast? p (term ++ s))
    (hterm : termAt? (p.getLast?.or front.getLast?) (byLength terms) (term ++ s) = some (term,s)) :
    Leads terms front p term s := by
  rw [← List.getLast?_append] at hterm
  obtain ⟨hmem,-,hbounded⟩ := eq_append_of_termAt? hterm
  refine ⟨stands_byLength.mp (stands_iff.mpr ⟨hmem,hbounded⟩),?_,?_⟩
  · intro p' term' s' heq hstands
    exact Nat.le_of_not_lt fun hlt => hp.not_stands heq hlt (stands_byLength.mpr hstands)
  · intro term' s' heq hstands
    obtain ⟨hmem',hbounded'⟩ := stands_iff.mp (stands_byLength.mpr hstands)
    exact length_le_of_termAt? (pairwise_byLength terms) hterm hmem' heq hbounded'

theorem not_holds_of_passed {terms : List Text} {front t : Text} (hne : [] ∉ terms)
    (h : Passed (byLength terms) front.getLast? t []) : ¬Holds terms front t := by
  rintro ⟨p,term,s,ht,hstands⟩
  have hpos : 0 < term.length := List.length_pos_iff.mpr fun hnil => hne (hnil ▸ hstands.mem)
  have hlt : p.length < t.length := by
    rw [ht,List.length_append,List.length_append]
    omega
  exact h.not_stands (by rwa [List.append_nil]) hlt (stands_byLength.mpr hstands)

theorem reading_of_scan (hne : [] ∉ expansions.keys) {pos : Nat} {before : Option Char} {t : Text}
    {occs : List (Nat × Text)} (h : Scan (byLength expansions.keys) pos before t occs) {front : Text}
    (hbefore : before = front.getLast?) : Reading expansions front t (cut expansions pos t occs) := by
  induction h generalizing front with
  | free hfree => exact .free (not_holds_of_passed hne (hbefore ▸ hfree))
  | @found pos before p term s occs hp hterm _ ih =>
    subst hbefore
    have hleads := leads_of_termAt? hp hterm
    obtain ⟨expansion,hfind⟩ := Dictionary.exists_find? hleads.stands.mem
    have hterm_ne : term ≠ [] := fun hnil => hne (hnil ▸ hleads.stands.mem)
    rw [cut_found,hfind,Option.getD_some,wrap_eq]
    refine .found hleads hfind (ih ?_)
    rw [List.getLast?_append,List.getLast?_eq_some_getLast hterm_ne,Option.some_or]

theorem occurrences_eq_nil_iff {terms : List Text} (hne : [] ∉ terms) {t : Text} :
    occurrences terms t = [] ↔ ¬Holds terms [] t := by
  have hscan := scan_occurrences (t := t) hne
  constructor
  · intro hnil
    rw [hnil] at hscan
    cases hscan with
    | free hfree => exact not_holds_of_passed hne hfree
  · intro hfree
    generalize occurrences terms t = occs at hscan
    cases hscan with
    | free => rfl
    | @found _ _ p term s _ hp hterm =>
      have hleads : Leads terms [] p term s := leads_of_termAt? hp hterm
      exact absurd hleads.holds hfree

theorem wrapped_splitToken (hne : [] ∉ expansions.keys) (t : Token) :
    Wrapped expansions t (splitToken expansions t) := by
  by_cases hfree : Holds expansions.keys [] t.content
  · have hfound : occurrences expansions.keys t.content ≠ [] := fun hnil =>
      (occurrences_eq_nil_iff hne).mp hnil hfree
    have hsplit : splitToken expansions t =
        cut expansions 0 t.content (occurrences expansions.keys t.content) := by
      unfold splitToken
      split
      · contradiction
      · rfl
    rw [hsplit]
    exact .found hfree (reading_of_scan hne (scan_occurrences hne) rfl)
  · rw [splitToken,(occurrences_eq_nil_iff hne).mpr hfree]
    exact .free hfree

theorem rewritten_replaceChildren (hne : [] ∉ expansions.keys) (depth : Int) (cs : List Token) :
    Rewritten expansions depth cs (replaceChildren expansions depth cs) := by
  induction cs generalizing depth with
  | nil => exact .nil
  | cons t cs ih =>
    rw [replaceChildren_cons]
    split
    · rename_i hc
      exact .text hc.1 hc.2 (wrapped_splitToken hne t) (ih _)
    · rename_i hc
      exact .keep (fun hkind => Int.not_le.mp fun hle => hc ⟨hkind,hle⟩) (ih _)

theorem replaced_replaceToken (hne : [] ∉ expansions.keys) (t : Token) :
    Replaced expansions t (replaceToken expansions t) := by
  cases hvisible : t.isVisibleInline with
  | false =>
    rw [replaceToken,if_neg (by simp [hvisible])]
    exact .keep hvisible
  | true =>
    have hsome : t.children.isSome = true := by
      simp only [Token.isVisibleInline,Bool.and_eq_true] at hvisible
      exact hvisible.1.2
    obtain ⟨cs,hcs⟩ := Option.isSome_iff_exists.mp hsome
    rw [replaceToken,if_pos hvisible,hcs]
    exact .inline hvisible hcs (rewritten_replaceChildren hne 0 cs)

/-- Without terms there is nothing to replace. -/
theorem replace_eq_map (expansions : Dictionary Text) (ts : List Token) :
    replace expansions ts = ts.map (replaceToken expansions) := by
  unfold replace
  split
  · rename_i hempty
    rw [List.isEmpty_iff.mp hempty]
    have hkeep : ∀ t, replaceToken [] t = t := fun t =>
      replaceToken_of_settled fun _ => settled_of_no_terms 0 _
    exact (List.map_id _).symm.trans (List.map_congr_left fun t _ => (hkeep t).symm)
  · rfl

end Outcome

/-! The text of a stream, and its tags. -/

section Kept

variable {expansions : Dictionary Text} {front t : Text} {ts : List Token}

/-- The text of some tokens. -/
def textOf (ts : List Token) : Text := ts.flatMap Token.content

theorem textOf_append (ts us : List Token) : textOf (ts ++ us) = textOf ts ++ textOf us :=
  List.flatMap_append

@[simp] theorem textOf_piece (t : Text) : textOf (piece t) = t := by
  unfold piece
  split
  · rename_i h
    exact (List.isEmpty_iff.mp h).symm
  · exact List.append_nil t

@[simp] theorem textOf_abbreviated (expansion term : Text) :
    textOf (abbreviated expansion term) = term := by
  simp [textOf,abbreviated,Token.make,Token.ofText]

theorem Reading.textOf_eq (h : Reading expansions front t ts) : textOf ts = t := by
  induction h with
  | free => exact textOf_piece _
  | found _ _ _ ih => simp [textOf_append,ih]

theorem Wrapped.textOf_eq {t : Token} (h : Wrapped expansions t ts) : textOf ts = t.content := by
  cases h with
  | free => exact List.append_nil _
  | found _ hread => exact hread.textOf_eq

theorem Rewritten.textOf_eq {depth : Int} {cs cs' : List Token} (h : Rewritten expansions depth cs cs') :
    textOf cs' = textOf cs := by
  induction h with
  | nil => rfl
  | @keep _ t _ _ _ _ ih => exact congrArg (t.content ++ ·) ih
  | @text _ t ts cs cs' _ _ hwrapped _ ih =>
    rw [textOf_append,hwrapped.textOf_eq,ih]
    rfl

/-- The text in the content of a token. -/
def inlineText (t : Token) : Text := textOf (t.children.getD [])

theorem Replaced.inlineText_eq {t u : Token} (h : Replaced expansions t u) :
    inlineText u = inlineText t := by
  cases h with
  | keep => rfl
  | inline _ hchildren hrest =>
    unfold inlineText
    rw [hchildren]
    exact hrest.textOf_eq

open Token in
/-- Tokens with well-formed children that leave the open tags as they are. -/
def Flat (ts : List Token) : Prop := Neutral ts ∧ ∀ t ∈ ts, wellFormed (t.children.getD []) = true

theorem Flat.append {us : List Token} (h : Flat ts) (h' : Flat us) : Flat (ts ++ us) :=
  ⟨h.1.append h'.1,List.forall_mem_append.mpr ⟨h.2,h'.2⟩⟩

theorem flat_ofText (t : Text) : Flat [Token.ofText t] :=
  ⟨Token.neutral_singleton rfl,List.forall_mem_singleton.mpr rfl⟩

theorem flat_piece (t : Text) : Flat (piece t) := by
  unfold piece
  split
  · exact ⟨Token.neutral_nil,List.forall_mem_nil _⟩
  · exact flat_ofText t

theorem flat_abbreviated (expansion term : Text) : Flat (abbreviated expansion term) := by
  refine ⟨(flat_ofText term).1.enclose rfl rfl rfl,?_⟩
  simp only [abbreviated,List.forall_mem_cons]
  exact ⟨rfl,rfl,rfl,List.forall_mem_nil _⟩

theorem Reading.flat (h : Reading expansions front t ts) : Flat ts := by
  induction h with
  | free => exact flat_piece _
  | found _ _ _ ih => exact ((flat_piece _).append (flat_abbreviated _ _)).append ih

/-- Text tokens outside abbreviation elements that hold a term neither open nor close an element. -/
def NoTags (terms : List Text) (cs : List Token) : Prop :=
  ∀ xs t ys, cs = xs ++ t::ys → t.kind = "text" → depthAfter 0 xs ≤ 0 → Holds terms [] t.content →
    t.nesting ≠ 1 ∧ t.nesting ≠ -1

theorem noTags_of_nesting {terms : List Text} {cs : List Token}
    (h : ∀ t ∈ cs, t.kind = "text" → t.nesting = 0) : NoTags terms cs := by
  rintro xs t ys rfl hkind - -
  have hzero := h t (List.mem_append_right _ List.mem_cons_self) hkind
  rw [hzero]
  decide

open Token in
theorem Rewritten.stackAfter_eq {depth : Int} {cs cs' : List Token}
    (h : Rewritten expansions depth cs cs')
    (htags : ∀ xs t ys, cs = xs ++ t::ys → t.kind = "text" → depthAfter depth xs ≤ 0 →
      Holds expansions.keys [] t.content → t.nesting ≠ 1 ∧ t.nesting ≠ -1) (stack : List String) :
    stackAfter stack cs' = stackAfter stack cs := by
  induction h generalizing stack with
  | nil => rfl
  | @keep depth t cs cs' _ _ ih =>
    have hrest := fun stack' => ih (fun xs u ys hcs => htags (t::xs) u ys (by rw [hcs]; rfl)) stack'
    simp only [stackAfter,List.foldlM_cons] at hrest ⊢
    exact congrArg _ (funext hrest)
  | @text depth t ts cs cs' hkind hdepth hwrapped _ ih =>
    have hrest := fun stack' => ih (fun xs u ys hcs => htags (t::xs) u ys (by rw [hcs]; rfl)) stack'
    cases hwrapped with
    | free =>
      simp only [stackAfter,List.singleton_append,List.foldlM_cons] at hrest ⊢
      exact congrArg _ (funext hrest)
    | found hholds hread =>
      have hdepth' : depthAfter depth [] ≤ 0 := by
        rwa [depthBehind_of_text hkind] at hdepth
      obtain ⟨hopen,hclose⟩ := htags [] t cs rfl hkind hdepth' hholds
      have hstep : stepStack stack t = some stack := by
        unfold stepStack
        rw [if_neg hopen,if_neg hclose]
      have hsplit : stackAfter stack (ts ++ cs') = (stackAfter stack ts).bind fun s => stackAfter s cs' :=
        List.foldlM_append
      rw [hsplit,hread.flat.1 stack,Option.bind_some,hrest,stackAfter,stackAfter,List.foldlM_cons,hstep]
      rfl

open Token in
theorem Rewritten.wellFormed_children {depth : Int} {cs cs' : List Token}
    (h : Rewritten expansions depth cs cs') (hcs : ∀ t ∈ cs, wellFormed (t.children.getD []) = true) :
    ∀ t ∈ cs', wellFormed (t.children.getD []) = true := by
  induction h with
  | nil => exact hcs
  | keep _ _ ih =>
    rw [List.forall_mem_cons] at hcs ⊢
    exact ⟨hcs.1,ih hcs.2⟩
  | text _ _ hwrapped _ ih =>
    rw [List.forall_mem_cons] at hcs
    refine List.forall_mem_append.mpr ⟨?_,ih hcs.2⟩
    cases hwrapped with
    | free => exact List.forall_mem_singleton.mpr hcs.1
    | found _ hread => exact hread.flat.2

theorem Replaced.stepStack_eq {t u : Token} (h : Replaced expansions t u) (stack : List String) :
    Token.stepStack stack u = Token.stepStack stack t := by
  cases h with
  | keep => rfl
  | inline => rfl

open Token in
theorem Replaced.wellFormed_children {t u : Token} (h : Replaced expansions t u)
    (htags : t.isVisibleInline = true → NoTags expansions.keys (t.children.getD []))
    (ht : wellFormed (t.children.getD []) = true) : wellFormed (u.children.getD []) = true := by
  cases h with
  | keep => exact ht
  | inline hvisible hchildren hrest =>
    have hall := htags hvisible
    rw [hchildren,Option.getD_some] at ht hall
    obtain ⟨hstack,hcs⟩ := wellFormed_eq_true_iff.mp ht
    refine wellFormed_eq_true_iff.mpr ⟨?_,hrest.wellFormed_children hcs⟩
    exact (hrest.stackAfter_eq hall []).trans hstack

open Token in
theorem wellFormed_of_replaced {us : List Token} (h : List.Forall₂ (Replaced expansions) ts us)
    (htags : ∀ t ∈ ts, t.isVisibleInline = true → NoTags expansions.keys (t.children.getD []))
    (hts : wellFormed ts = true) : wellFormed us = true := by
  obtain ⟨hstack,hchildren⟩ := wellFormed_eq_true_iff.mp hts
  have hboth : stackAfter [] us = stackAfter [] ts ∧ ∀ u ∈ us, wellFormed (u.children.getD []) = true := by
    clear hts hstack
    -- the tags before a token of the stream may be open there
    generalize ([] : List String) = stack
    induction h generalizing stack with
    | nil => exact ⟨rfl,List.forall_mem_nil _⟩
    | @cons t u ts us htu _ ih =>
      rw [List.forall_mem_cons] at htags hchildren
      have hrest := fun stack' => (ih htags.2 hchildren.2 stack').1
      refine ⟨?_,List.forall_mem_cons.mpr
        ⟨htu.wellFormed_children htags.1 hchildren.1,(ih htags.2 hchildren.2 stack).2⟩⟩
      simp only [stackAfter,List.foldlM_cons,htu.stepStack_eq] at hrest ⊢
      exact congrArg _ (funext hrest)
  exact wellFormed_eq_true_iff.mpr ⟨hboth.1.trans hstack,hboth.2⟩

end Kept

section Order

variable {terms terms' : List Text} {expansions expansions' : Dictionary Text}
  {front p term s t : Text} {ts : List Token}

theorem stands_congr (h : ∀ term, term ∈ terms ↔ term ∈ terms') {back : Text} :
    Stands terms front term back ↔ Stands terms' front term back := by
  rw [stands_iff,stands_iff,h]

theorem holds_congr (h : ∀ term, term ∈ terms ↔ term ∈ terms') :
    Holds terms front t ↔ Holds terms' front t := by
  simp only [Holds,stands_congr h]

theorem Leads.congr (h : ∀ term, term ∈ terms ↔ term ∈ terms') (hleads : Leads terms front p term s) :
    Leads terms' front p term s where
  stands := (stands_congr h).mp hleads.stands
  leftmost p' term' s' heq h' := hleads.leftmost p' term' s' heq ((stands_congr h).mpr h')
  longest term' s' heq h' := hleads.longest term' s' heq ((stands_congr h).mpr h')

/-- A reading depends on which terms there are, and on their expansions. -/
theorem Reading.congr (h : ∀ term, term ∈ expansions.keys ↔ term ∈ expansions'.keys)
    (hfind : ∀ term, expansions.find? term = expansions'.find? term)
    (hread : Reading expansions front t ts) : Reading expansions' front t ts := by
  induction hread with
  | free hfree => exact .free ((holds_congr h).not.mp hfree)
  | found hleads hterm _ ih => exact .found (hleads.congr h) (hfind _ ▸ hterm) ih

theorem splitToken_congr (hne : [] ∉ expansions.keys)
    (h : ∀ term, term ∈ expansions.keys ↔ term ∈ expansions'.keys)
    (hfind : ∀ term, expansions.find? term = expansions'.find? term) (t : Token) :
    splitToken expansions t = splitToken expansions' t := by
  refine Wrapped.unique ?_ (wrapped_splitToken ((h _).not.mp hne) t)
  generalize hts : splitToken expansions t = ts
  cases hts ▸ wrapped_splitToken hne t with
  | free hfree => exact .free ((holds_congr h).not.mp hfree)
  | found hholds hread => exact .found ((holds_congr h).mp hholds) (hread.congr h hfind)

/-- The order of the terms does not show. -/
theorem replace_perm (hne : [] ∉ expansions.keys) (hkeys : expansions.keys.Nodup)
    (h : expansions'.Perm expansions) (ts : List Token) :
    replace expansions' ts = replace expansions ts := by
  have hsplit : ∀ t, splitToken expansions t = splitToken expansions' t :=
    splitToken_congr hne (fun term => (h.symm.map _).mem_iff)
      fun term => Dictionary.find?_perm h.symm hkeys
  have hchildren : ∀ depth cs,
      replaceChildren expansions' depth cs = replaceChildren expansions depth cs := by
    intro depth cs
    induction cs generalizing depth with
    | nil => rfl
    | cons t cs ih => rw [replaceChildren_cons,replaceChildren_cons,ih,hsplit]
  rw [replace_eq_map,replace_eq_map]
  refine List.map_congr_left fun t _ => ?_
  unfold replaceToken
  rw [funext (hchildren 0)]

end Order

section Replace

variable {expansions : Dictionary Text}

theorem forall₂_replaced (hne : [] ∉ expansions.keys) (ts : List Token) :
    List.Forall₂ (Replaced expansions) ts (replace expansions ts) := by
  rw [replace_eq_map]
  exact List.forall₂_map_right_iff.mpr
    (List.forall₂_same.mpr fun t _ => replaced_replaceToken hne t)

theorem forall₂_replaced_iff (hne : [] ∉ expansions.keys) {ts us : List Token} :
    List.Forall₂ (Replaced expansions) ts us ↔ us = replace expansions ts := by
  constructor
  · intro h
    have hunique : Relator.RightUnique (Replaced expansions) := fun t u v => Replaced.unique
    exact hunique.forall₂ h (forall₂_replaced hne ts)
  · rintro rfl
    exact forall₂_replaced hne ts

theorem map_inlineText_replace (hne : [] ∉ expansions.keys) (ts : List Token) :
    (replace expansions ts).map inlineText = ts.map inlineText := by
  rw [replace_eq_map,List.map_map]
  exact List.map_congr_left fun t _ => (replaced_replaceToken hne t).inlineText_eq

/-- Wrapping reads the texts of a stream from left to right and takes the longest term at the first place
where one stands; it changes nothing else, keeps the text, does not depend on the order of the terms, and
leaves a well-formed stream well formed when no text that it wraps opens or closes an element. -/
theorem replace_leftmost_longest (expansions : Dictionary Text) (hkeys : expansions.keys.Nodup)
    (hterms : ∀ term ∈ expansions.keys, term ≠ []) (ts : List Token) :
    (∀ us, List.Forall₂ (Replaced expansions) ts us ↔ us = replace expansions ts) ∧
    (replace expansions ts).map inlineText = ts.map inlineText ∧
    (∀ expansions', expansions'.Perm expansions → replace expansions' ts = replace expansions ts) ∧
    (Token.wellFormed ts = true →
      (∀ t ∈ ts, t.isVisibleInline = true → NoTags expansions.keys (t.children.getD [])) →
      Token.wellFormed (replace expansions ts) = true) := by
  have hne : [] ∉ expansions.keys := fun hmem => hterms [] hmem rfl
  exact ⟨fun us => forall₂_replaced_iff hne,map_inlineText_replace hne ts,
    fun expansions' h => replace_perm hne hkeys h ts,
    fun hts htags => wellFormed_of_replaced (forall₂_replaced hne ts) htags hts⟩

/-- Terms that overlap, one of them within the other. -/
theorem replace_leftmost_longest_overlapping :
    let expansions : Dictionary Text := [("ID".toList,"Identifier".toList),
      ("C.ID".toList,"Client".toList),("IDE".toList,"Editor".toList)]
    let text : Token := Token.ofText "IDE, A.C.ID C-ID".toList
    let ts : List Token := [Token.make "paragraph_open" "p" 1,
      { Token.make "inline" "" 0 with children := some [text,Token.make "softbreak" "br" 0] },
      Token.make "paragraph_close" "p" (-1)]
    let us : List Token := [Token.make "paragraph_open" "p" 1,
      { Token.make "inline" "" 0 with children := some (abbreviated "Editor".toList "IDE".toList ++
        [Token.ofText ", A.".toList] ++ abbreviated "Client".toList "C.ID".toList ++
        [Token.ofText " C-".toList] ++ abbreviated "Identifier".toList "ID".toList ++
        [Token.make "softbreak" "br" 0]) },
      Token.make "paragraph_close" "p" (-1)]
    expansions.keys.Nodup ∧ (∀ term ∈ expansions.keys, term ≠ []) ∧ Token.wellFormed ts = true ∧
      List.Forall₂ (Replaced expansions) ts us ∧ replace expansions.reverse ts = us ∧
      Token.wellFormed us = true := by
  intro expansions text ts us
  have hkeys : expansions.keys.Nodup := by decide
  have hterms : ∀ term ∈ expansions.keys, term ≠ [] := by decide
  have hts : Token.wellFormed ts = true := by rfl
  have hus : us = replace expansions ts := by rfl
  obtain ⟨hreplaced,-,hperm,hwell⟩ := replace_leftmost_longest expansions hkeys hterms ts
  refine ⟨hkeys,hterms,hts,(hreplaced us).mpr hus,
    (hperm _ (List.reverse_perm _)).trans hus.symm,?_⟩
  rw [hus]
  refine hwell hts fun t ht _ => noTags_of_nesting ?_
  simp only [ts,List.mem_cons,List.not_mem_nil,or_false] at ht
  rcases ht with rfl | rfl | rfl
  · exact List.forall_mem_nil _
  · exact List.forall_mem_cons.mpr ⟨fun _ => rfl,List.forall_mem_singleton.mpr fun _ => rfl⟩
  · exact List.forall_mem_nil _

/-- A text that opens an element itself leaves it open when its terms are wrapped. -/
theorem wellFormed_replace_false :
    let expansions : Dictionary Text := [("HTML".toList,"Hypertext".toList)]
    let text : Token := { Token.make "text" "b" 1 with content := "HTML".toList }
    let ts : List Token :=
      [{ Token.make "inline" "" 0 with children := some [text,Token.make "b_close" "b" (-1)] }]
    expansions.keys.Nodup ∧ (∀ term ∈ expansions.keys, term ≠ []) ∧ Token.wellFormed ts = true ∧
      Token.wellFormed (replace expansions ts) = false := by
  decide

end Replace

end Abbreviation
end Longform
