import Mathlib.Data.List.Infix
import Longform.Proofs.Abbreviation.Scan

/-! Streams whose terms are wrapped. No text outside the abbreviation elements of such a stream holds
a term; wrapping makes every stream one of them, and leaves it alone afterwards. -/
namespace Longform
namespace Abbreviation

/-- How many abbreviation elements are open behind a token. -/
def depthBehind (depth : Int) (t : Token) : Int :=
  if t.kind = "abbr_open" then depth + 1 else if t.kind = "abbr_close" then depth - 1 else depth

/-- How many abbreviation elements are open behind some tokens: the openings less the closings. -/
def depthAfter (depth : Int) (ts : List Token) : Int := ts.foldl depthBehind depth

@[simp] theorem depthAfter_nil (depth : Int) : depthAfter depth [] = depth := rfl
@[simp] theorem depthAfter_cons (depth : Int) (t : Token) (ts : List Token) :
    depthAfter depth (t::ts) = depthAfter (depthBehind depth t) ts := rfl

theorem depthAfter_append (depth : Int) (xs ys : List Token) :
    depthAfter depth (xs ++ ys) = depthAfter (depthAfter depth xs) ys := List.foldl_append

theorem depthBehind_of_text {t : Token} (h : t.kind = "text") (depth : Int) :
    depthBehind depth t = depth := by
  simp [depthBehind,h]

theorem replaceChildren_cons (expansions : Dictionary Text) (depth : Int) (t : Token)
    (ts : List Token) : replaceChildren expansions depth (t::ts) =
      (if t.kind = "text" ∧ depthBehind depth t ≤ 0 then splitToken expansions t else [t]) ++
        replaceChildren expansions (depthBehind depth t) ts := by
  simp only [replaceChildren,depthBehind,Bool.and_eq_true,decide_eq_true_eq]
  congr

/-- No text outside abbreviation elements holds a term. -/
def Settled (terms : List Text) : Int → List Token → Prop
  | _, [] => True
  | depth, t::ts => (t.kind = "text" → depthBehind depth t ≤ 0 → occurrences terms t.content = []) ∧
      Settled terms (depthBehind depth t) ts

section Settled

variable {terms : List Text} {depth : Int} {xs ys : List Token}

theorem settled_append :
    Settled terms depth (xs ++ ys) ↔ Settled terms depth xs ∧ Settled terms (depthAfter depth xs) ys := by
  induction xs generalizing depth with
  | nil => simp [Settled]
  | cons t xs ih => rw [List.cons_append,Settled,Settled,ih,depthAfter_cons,and_assoc]

/-- Settled tokens are left alone. -/
theorem Settled.replaceChildren_eq {expansions : Dictionary Text}
    (h : Settled expansions.keys depth xs) : replaceChildren expansions depth xs = xs := by
  induction xs generalizing depth with
  | nil => rfl
  | cons t xs ih =>
    obtain ⟨ht,hxs⟩ := h
    rw [replaceChildren_cons,ih hxs]
    split
    · rename_i hc
      rw [splitToken,ht hc.1 hc.2]
      rfl
    · rfl

end Settled

section Cut

variable {expansions : Dictionary Text} {depth : Int} {term t : Text}

@[simp] theorem depthAfter_wrap (expansion term : Text) (depth : Int) :
    depthAfter depth (wrap expansion term) = depth := by
  simp [wrap,depthBehind,Token.withAttr,Token.setAttr,Token.make,Token.ofText]

/-- The text of a wrapped term stands inside its element. -/
theorem settled_wrap (terms : List Text) (expansion term : Text) :
    Settled terms 0 (wrap expansion term) := by
  simp [wrap,Settled,depthBehind,Token.withAttr,Token.setAttr,Token.make,Token.ofText]

theorem settled_ofText {terms : List Text} (h : occurrences terms t = []) :
    Settled terms depth [Token.ofText t] := ⟨fun _ _ => h,trivial⟩

theorem depthAfter_ofText : depthAfter depth [Token.ofText t] = depth :=
  depthBehind_of_text (t := Token.ofText t) rfl depth

theorem occurrences_eq_nil {terms : List Text} (hne : [] ∉ terms)
    (h : Passed (byLength terms) none t []) : occurrences terms t = [] :=
  occurrencesFrom_eq_nil (mem_byLength_iff.not.mpr hne) _ h

theorem scan_occurrences {terms : List Text} (hne : [] ∉ terms) :
    Scan (byLength terms) 0 none t (occurrences terms t) :=
  scan_occurrencesFrom (mem_byLength_iff.not.mpr hne) (Nat.lt_succ_self _)

/-- A text that may be empty, as tokens. -/
def piece (t : Text) : List Token := if t.isEmpty then [] else [Token.ofText t]

theorem settled_piece {terms : List Text} (h : occurrences terms t = []) :
    Settled terms depth (piece t) := by
  unfold piece
  split
  · trivial
  · exact settled_ofText h

@[simp] theorem depthAfter_piece : depthAfter depth (piece t) = depth := by
  unfold piece
  split
  · rfl
  · exact depthAfter_ofText

/-- Cutting at the first occurrence. -/
theorem cut_found (expansions : Dictionary Text) (pos : Nat) (p term s : Text)
    (occs : List (Nat × Text)) :
    cut expansions pos (p ++ (term ++ s)) ((pos + p.length,term)::occs) =
      piece p ++ wrap ((expansions.find? term).getD []) term ++
        cut expansions (pos + p.length + term.length) s occs := by
  have hdrop : (p ++ (term ++ s)).drop (p.length + term.length) = s := by
    rw [← List.append_assoc,← List.length_append,List.drop_left]
  simp only [cut,piece,Nat.add_sub_cancel_left,List.take_left,hdrop]

variable {pos : Nat} {before : Option Char} {occs : List (Nat × Text)}

theorem depthAfter_cut {terms : List Text} (h : Scan terms pos before t occs) :
    depthAfter depth (cut expansions pos t occs) = depth := by
  induction h with
  | free => exact depthAfter_piece
  | found _ _ _ ih => simp [cut_found,depthAfter_append,ih]

/-- The pieces of a text that was cut at its terms hold no more terms. A piece begins and ends with a
word boundary only where the text had one: in front of `t`, this is the hypothesis. -/
theorem settled_cut (hne : [] ∉ expansions.keys) (h : Scan (byLength expansions.keys) pos before t occs)
    (hstart : isBoundary none t.head? = true → isBoundary before t.head? = true) :
    Settled expansions.keys 0 (cut expansions pos t occs) := by
  have hne' : [] ∉ byLength expansions.keys := mem_byLength_iff.not.mpr hne
  induction h with
  | free hfree =>
    exact settled_piece (occurrences_eq_nil hne (hfree.alone hne' hstart id))
  | @found pos before p term s occs hp hterm _ ih =>
    obtain ⟨hmem,-,hfirst,hlast⟩ := eq_append_of_termAt? hterm
    have hterm_ne : term ≠ [] := fun hnil => hne' (hnil ▸ hmem)
    obtain ⟨d,hd⟩ := Option.ne_none_iff_exists'.mp (List.getLast?_eq_none_iff.not.mpr hterm_ne)
    rw [cut_found,settled_append,settled_append,depthAfter_append,depthAfter_piece,depthAfter_wrap]
    refine ⟨⟨settled_piece (occurrences_eq_nil hne ?_),settled_wrap _ _ _⟩,?_⟩
    · cases p with
      | nil => trivial
      | cons c p =>
        refine hp.alone hne' hstart fun _ => ?_
        rw [List.getLast?_eq_some_getLast (List.cons_ne_nil c p)] at hfirst ⊢
        exact hfirst
    · refine ih fun _ => ?_
      rwa [hd] at hlast ⊢

end Cut

section Replace

variable {expansions : Dictionary Text} {depth : Int} {t : Token} {cs : List Token}

theorem settled_splitToken (hne : [] ∉ expansions.keys) (ht : t.kind = "text") :
    Settled expansions.keys 0 (splitToken expansions t) ∧
      depthAfter depth (splitToken expansions t) = depth := by
  have hscan := scan_occurrences (t := t.content) hne
  unfold splitToken
  split
  · rename_i hnil
    exact ⟨⟨fun _ _ => hnil,trivial⟩,depthBehind_of_text ht depth⟩
  · exact ⟨settled_cut hne hscan id,depthAfter_cut hscan⟩

/-- Wrapping settles tokens that never close more elements than are open. -/
theorem settled_replaceChildren (hne : [] ∉ expansions.keys)
    (h : ∀ front, front <+: cs → 0 ≤ depthAfter depth front) :
    Settled expansions.keys depth (replaceChildren expansions depth cs) := by
  induction cs generalizing depth with
  | nil => trivial
  | cons t cs ih =>
    have hrest : Settled expansions.keys (depthBehind depth t)
        (replaceChildren expansions (depthBehind depth t) cs) :=
      ih fun front hfront => h (t::front) (List.prefix_cons_inj t |>.mpr hfront)
    have hdepth : 0 ≤ depth := h [] List.nil_prefix
    rw [replaceChildren_cons]
    split
    · rename_i hc
      obtain ⟨ht,hle⟩ := hc
      rw [depthBehind_of_text ht] at hrest hle ⊢
      obtain rfl : depth = 0 := by omega
      obtain ⟨hsettled,hafter⟩ := settled_splitToken hne ht
      exact settled_append.mpr ⟨hsettled,by rwa [hafter]⟩
    · rename_i hc
      exact ⟨fun ht hle => absurd ⟨ht,hle⟩ hc,hrest⟩

/-- Without terms every stream is settled. -/
theorem settled_of_no_terms (depth : Int) (ts : List Token) : Settled [] depth ts := by
  have hpassed : ∀ (before : Option Char) (t : Text), Passed (byLength []) before t [] := by
    intro before t
    induction t generalizing before with
    | nil => trivial
    | cons c t ih => exact ⟨rfl,ih _⟩
  induction ts generalizing depth with
  | nil => trivial
  | cons t ts ih => exact ⟨fun _ _ => occurrences_eq_nil (by simp) (hpassed none _),ih _⟩

theorem settled_replaceToken (hne : [] ∉ expansions.keys) (ht : t.isVisibleInline = true)
    (h : ∀ front, front <+: t.children.getD [] → 0 ≤ depthAfter 0 front) :
    Settled expansions.keys 0 ((replaceToken expansions t).children.getD []) := by
  rw [replaceToken,if_pos ht]
  rcases hc : t.children with _ | cs
  · trivial
  · rw [hc] at h
    exact settled_replaceChildren hne h

theorem isVisibleInline_replaceToken (expansions : Dictionary Text) (t : Token) :
    (replaceToken expansions t).isVisibleInline = t.isVisibleInline := by
  unfold replaceToken
  split
  · simp [Token.isVisibleInline]
  · rfl

theorem replaceToken_of_settled
    (h : t.isVisibleInline = true → Settled expansions.keys 0 (t.children.getD [])) :
    replaceToken expansions t = t := by
  unfold replaceToken
  split
  · rename_i ht
    have hchildren : t.children.map (replaceChildren expansions 0) = t.children := by
      have hsettled := h ht
      rcases hc : t.children with _ | cs
      · rfl
      · rw [hc] at hsettled
        exact congrArg some hsettled.replaceChildren_eq
    rw [hchildren]
    cases t
    rfl
  · rfl

/-- Wrapping the terms of a stream a second time changes nothing, as long as no abbreviation closes
that is not open. What is left outside the elements, pieces of cut texts included, holds no term. -/
theorem replace_replace (expansions : Dictionary Text) (ts : List Token)
    (hterms : ∀ term ∈ expansions.keys, term ≠ [])
    (hts : ∀ t ∈ ts, t.isVisibleInline = true →
      ∀ front, front <+: t.children.getD [] → 0 ≤ depthAfter 0 front) :
    replace expansions (replace expansions ts) = replace expansions ts ∧
      ∀ t ∈ replace expansions ts, t.isVisibleInline = true →
        Settled expansions.keys 0 (t.children.getD []) := by
  have hne : [] ∉ expansions.keys := fun hmem => hterms [] hmem rfl
  by_cases hempty : expansions = []
  · subst hempty
    exact ⟨rfl,fun t _ _ => settled_of_no_terms 0 _⟩
  have hreplace : ∀ us, replace expansions us = us.map (replaceToken expansions) := fun us =>
    if_neg (by simpa using hempty)
  have hsettled : ∀ t ∈ replace expansions ts, t.isVisibleInline = true →
      Settled expansions.keys 0 (t.children.getD []) := by
    intro u hu hvisible
    rw [hreplace] at hu
    obtain ⟨t,ht,rfl⟩ := List.mem_map.mp hu
    rw [isVisibleInline_replaceToken] at hvisible
    exact settled_replaceToken hne hvisible (hts t ht hvisible)
  refine ⟨?_,hsettled⟩
  rw [hreplace (replace expansions ts)]
  exact (List.map_congr_left fun t ht => replaceToken_of_settled (hsettled t ht)).trans (List.map_id _)

/-- Terms that begin with a letter and with a full stop, side by side. -/
theorem replace_replace_side_by_side :
    let expansions : Dictionary Text :=
      [("HTML".toList,"Hypertext".toList),(".js".toList,"JavaScript".toList)]
    let ts : List Token :=
      [{ Token.make "inline" "" 0 with children := some [Token.ofText "an HTML.js x.HTML".toList] }]
    (∀ term ∈ expansions.keys, term ≠ []) ∧
      (∀ t ∈ ts, t.isVisibleInline = true →
        ∀ front, front <+: t.children.getD [] → 0 ≤ depthAfter 0 front) ∧
      replace expansions (replace expansions ts) = replace expansions ts := by
  intro expansions ts
  have hterms : ∀ term ∈ expansions.keys, term ≠ [] := by decide
  have hts : ∀ t ∈ ts, t.isVisibleInline = true →
      ∀ front, front <+: t.children.getD [] → 0 ≤ depthAfter 0 front := by
    intro t ht _ front hfront
    obtain rfl := List.mem_singleton.mp ht
    have hall : ∀ front ∈ [Token.ofText "an HTML.js x.HTML".toList].inits,
        0 ≤ depthAfter 0 front := by decide
    exact hall front ((List.mem_inits _ _).mpr hfront)
  exact ⟨hterms,hts,(replace_replace expansions ts hterms hts).1⟩

end Replace
end Abbreviation
end Longform
