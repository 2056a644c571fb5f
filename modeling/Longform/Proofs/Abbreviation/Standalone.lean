import Longform.Proofs.Abbreviation.Leftmost
import Longform.Proofs.Text.Word

/-! Terms that stand alone, between blanks or at the ends of a text. Such a term is wrapped as itself
exactly when it begins and ends with a character of a word; of a term that does not, a shorter term at its
beginning may be wrapped. -/
namespace Longform

namespace Abbreviation

/-- A blank or an end of the text is on either side of what stands between `front` and `back`. -/
structure Alone (front back : Text) : Prop where
  before : front.getLast?.all Text.isBlank = true
  behind : back.head?.all Text.isBlank = true

/-- A term that begins and ends with a character of a word. -/
def WordEnded (term : Text) : Prop :=
  term.head?.any Text.isWord = true ∧ term.getLast?.any Text.isWord = true

instance (term : Text) : Decidable (WordEnded term) := inferInstanceAs (Decidable (_ ∧ _))

/-- A term that nothing can be confused with: it has characters, none of them blank. -/
def Solid (term : Text) : Prop := term ≠ [] ∧ term.any Text.isBlank = false

instance (term : Text) : Decidable (Solid term) := inferInstanceAs (Decidable (_ ∧ _))

/-- Among some tokens a term is wrapped with its expansion, between `front` and `back`. -/
def Wraps (expansions : Dictionary Text) (front term back : Text) (ts : List Token) : Prop :=
  ∃ expansion as bs, expansions.find? term = some expansion ∧
    ts = as ++ (abbreviated expansion term ++ bs) ∧ textOf as = front ∧ textOf bs = back

section Alone

variable {terms : List Text} {front term back : Text}

theorem any_isWord_of_blank {c? : Option Char} (h : c?.all Text.isBlank = true) :
    c?.any Text.isWord = false := by
  cases c? with
  | none => rfl
  | some c => exact Text.isWord_of_isBlank h

theorem Solid.not_blank (h : Solid term) {c : Char} (hc : c ∈ term) : Text.isBlank c = false :=
  Bool.eq_false_iff.mpr (List.any_eq_false.mp h.2 c hc)

/-- Beside a blank, a word begins or ends where there is a character of one. -/
theorem stands_iff_of_alone (h : Alone front back) (hterm : term ∈ terms) (hne : term ≠ []) :
    Stands terms front term back ↔ WordEnded term := by
  have hhead : (term ++ back).head? = term.head? := List.head?_append_of_ne_nil _ hne
  have hlast : (front ++ term).getLast? = term.getLast? := List.getLast?_append_of_ne_nil _ hne
  have hstart : isBoundary front.getLast? (term ++ back).head? = term.head?.any Text.isWord := by
    rw [isBoundary,hhead,any_isWord_of_blank h.before,Bool.false_bne]
  have hstop : isBoundary (front ++ term).getLast? back.head? = term.getLast?.any Text.isWord := by
    rw [isBoundary,hlast,any_isWord_of_blank h.behind,Bool.bne_false]
  constructor
  · rintro ⟨-,h1,h2⟩
    exact ⟨hstart ▸ h1,hstop ▸ h2⟩
  · rintro ⟨h1,h2⟩
    exact ⟨hterm,hstart.trans h1,hstop.trans h2⟩

/-- A solid text that begins where another one does is no longer than that, if a blank or the end follows
the other. -/
theorem eq_of_solid_prefix {term' s s' : Text} (hsolid : Solid term')
    (hs : s.head?.all Text.isBlank = true) (heq : term' ++ s' = term ++ s)
    (hle : term.length ≤ term'.length) : term' = term ∧ s' = s := by
  obtain ⟨more,rfl,rfl⟩ : ∃ more, term' = term ++ more ∧ s = more ++ s' := by
    rcases List.append_eq_append_iff.mp heq with ⟨more,rfl,rfl⟩ | ⟨more,rfl,rfl⟩
    · rw [List.length_append] at hle
      obtain rfl : more = [] := List.length_eq_zero_iff.mp (by omega)
      exact ⟨[],by simp,rfl⟩
    · exact ⟨more,rfl,rfl⟩
  cases more with
  | nil => simp
  | cons c more =>
    have hblank : Text.isBlank c = true := hs
    rw [hsolid.not_blank (by simp)] at hblank
    cases hblank

/-- A solid text does not reach over a blank. -/
theorem exists_append_of_solid {q r s' term' : Text} (hsolid : Solid term')
    (hq : q.getLast?.all Text.isBlank = true) (hne : q ≠ []) (heq : term' ++ s' = q ++ r) :
    ∃ q', q = term' ++ q' ∧ s' = q' ++ r := by
  rcases List.append_eq_append_iff.mp heq with ⟨q',rfl,rfl⟩ | ⟨more,rfl,rfl⟩
  · exact ⟨q',rfl,rfl⟩
  · rw [List.getLast?_eq_some_getLast hne,Option.all_some,
      hsolid.not_blank (List.mem_append_left _ (List.getLast_mem hne))] at hq
    cases hq

end Alone

section Wraps

variable {expansions : Dictionary Text} {front p term s t : Text} {ts : List Token}

theorem Wraps.append_left (as : List Token) (h : Wraps expansions p term s ts) :
    Wraps expansions (textOf as ++ p) term s (as ++ ts) := by
  obtain ⟨expansion,as',bs,hfind,rfl,rfl,hbs⟩ := h
  exact ⟨expansion,as ++ as',bs,hfind,(List.append_assoc _ _ _).symm,textOf_append _ _,hbs⟩

/-- Reading wraps a term that stands alone: what was wrapped before it ends before it, and what stands
at its place ends with it. -/
theorem Reading.wraps (hterms : ∀ term ∈ expansions.keys, Solid term)
    (h : Reading expansions front t ts) (ht : t = p ++ (term ++ s)) (halone : Alone p s)
    (hstands : Stands expansions.keys (front ++ p) term s) : Wraps expansions p term s ts := by
  induction h generalizing p with
  | free hfree => exact absurd ⟨p,term,s,ht,hstands⟩ hfree
  | @found front p₁ term₁ s₁ expansion ts hleads hfind hrest ih =>
    have hsolid := hterms term₁ hleads.stands.mem
    have hle := hleads.leftmost p term s ht hstands
    obtain ⟨q,rfl,hq⟩ : ∃ q, p = p₁ ++ q ∧ term₁ ++ s₁ = q ++ (term ++ s) := by
      rcases List.append_eq_append_iff.mp ht with ⟨q,hp,hq⟩ | ⟨q,rfl,hq⟩
      · exact ⟨q,hp,hq⟩
      · rw [List.length_append] at hle
        obtain rfl : q = [] := List.length_eq_zero_iff.mp (by omega)
        exact ⟨[],by simp,hq.symm⟩
    by_cases hnil : q = []
    · -- both stand at one place, where the longest was taken
      subst hnil
      rw [List.append_nil] at hstands
      rw [List.nil_append] at hq
      obtain ⟨rfl,rfl⟩ := eq_of_solid_prefix hsolid halone.behind hq
        (hleads.longest term s hq hstands)
      exact ⟨expansion,piece p₁,ts,hfind,List.append_assoc _ _ _,by simp,hrest.textOf_eq⟩
    · -- what was wrapped before ends before the blank, so reading has the term still ahead
      have hlast : q.getLast? = (p₁ ++ q).getLast? :=
        (List.getLast?_append_of_ne_nil _ hnil).symm
      obtain ⟨q',rfl,rfl⟩ := exists_append_of_solid hsolid (hlast ▸ halone.before) hnil hq
      have hbefore : q'.getLast?.all Text.isBlank = true := by
        by_cases hq' : q' = []
        · rw [hq']
          rfl
        · have hall := halone.before
          rwa [← List.append_assoc,List.getLast?_append_of_ne_nil _ hq'] at hall
      have hthere : Stands expansions.keys (front ++ p₁ ++ term₁ ++ q') term s := by
        rw [← List.append_assoc,← List.append_assoc] at hstands
        exact hstands
      have hwraps := (ih rfl ⟨hbefore,halone.behind⟩ hthere).append_left
        (piece p₁ ++ abbreviated expansion term₁)
      rwa [textOf_append,textOf_piece,textOf_abbreviated,List.append_assoc] at hwraps

theorem kind_of_mem_piece {t : Text} {x : Token} (h : x ∈ piece t) : x.kind = "text" := by
  unfold piece at h
  split at h
  · cases h
  · rw [List.mem_singleton.mp h]
    rfl

theorem kind_opening (v : Text) :
    ((Token.make "abbr_open" "abbr" 1).withAttr "title" v).kind = "abbr_open" := rfl

/-- Where tokens that begin with a wrapped term go on to another one, that one lies behind the first. -/
theorem of_abbreviated_append_eq {expansion expansion' term' : Text} {as bs : List Token}
    (h : abbreviated expansion term ++ ts = as ++ (abbreviated expansion' term' ++ bs)) :
    (as = [] ∧ term = term' ∧ ts = bs) ∨
      ∃ as', as = abbreviated expansion term ++ as' ∧
        ts = as' ++ (abbreviated expansion' term' ++ bs) := by
  have hkinds : ∀ {a : Token} {v : Text}, a.kind ≠ "abbr_open" →
      a ≠ (Token.make "abbr_open" "abbr" 1).withAttr "title" v := fun hne hab =>
    hne ((congrArg Token.kind hab).trans (kind_opening _))
  rcases as with _ | ⟨x,_ | ⟨y,_ | ⟨z,as⟩⟩⟩
  · simp only [abbreviated,List.nil_append,List.cons_append,List.cons.injEq,true_and] at h
    exact .inl ⟨rfl,congrArg Token.content h.2.1,h.2.2⟩
  · simp only [abbreviated,List.nil_append,List.cons_append,List.cons.injEq] at h
    have hkind : (Token.ofText term).kind = "text" := rfl
    exact absurd h.2.1 (hkinds (by rw [hkind]; decide))
  · simp only [abbreviated,List.nil_append,List.cons_append,List.cons.injEq] at h
    exact absurd h.2.2.1 (hkinds (by decide))
  · simp only [abbreviated,List.nil_append,List.cons_append,List.cons.injEq] at h
    obtain ⟨rfl,rfl,rfl,h⟩ := h
    exact .inr ⟨as,rfl,h⟩

/-- Whatever reading wraps stands there. -/
theorem Reading.stands (h : Reading expansions front t ts) (hwraps : Wraps expansions p term s ts) :
    Stands expansions.keys (front ++ p) term s := by
  obtain ⟨expansion',as,bs,-,hts,rfl,rfl⟩ := hwraps
  induction h generalizing as with
  | free =>
    have hmem : (Token.make "abbr_close" "abbr" (-1)) ∈ as ++ (abbreviated expansion' term ++ bs) := by
      simp [abbreviated]
    rw [← hts] at hmem
    exact absurd (kind_of_mem_piece hmem) (by decide)
  | @found front p₁ term₁ s₁ expansion ts hleads _ hrest ih =>
    rw [List.append_assoc] at hts
    -- a plain piece holds no opening of an element
    have hpiece : ∃ as', as = piece p₁ ++ as' ∧
        abbreviated expansion term₁ ++ ts = as' ++ (abbreviated expansion' term ++ bs) := by
      rcases List.append_eq_append_iff.mp hts with ⟨as',has,h⟩ | ⟨more,hmore,h⟩
      · exact ⟨as',has,h⟩
      · cases more with
        | nil => exact ⟨[],by simpa using hmore.symm,h.symm⟩
        | cons x more =>
          have hx : x ∈ piece p₁ := by
            rw [hmore]
            exact List.mem_append_right _ List.mem_cons_self
          have hkind := kind_of_mem_piece hx
          rw [← (List.cons_eq_cons.mp h).1] at hkind
          exact absurd (hkind.symm.trans (kind_opening _)) (by decide)
    obtain ⟨as',rfl,h⟩ := hpiece
    rcases of_abbreviated_append_eq h with ⟨rfl,rfl,rfl⟩ | ⟨as'',rfl,hbehind⟩
    · rw [List.append_nil,textOf_piece,hrest.textOf_eq]
      exact hleads.stands
    · have hstands := ih as'' hbehind
      simpa only [textOf_append,textOf_piece,textOf_abbreviated,List.append_assoc] using hstands

/-- A term that stands alone in a text token is wrapped exactly when it begins and ends with a character
of a word. -/
theorem wraps_splitToken_iff (hterms : ∀ term ∈ expansions.keys, Solid term) {t : Token}
    (hcontent : t.content = p ++ (term ++ s)) (hterm : term ∈ expansions.keys) (halone : Alone p s) :
    Wraps expansions p term s (splitToken expansions t) ↔ WordEnded term := by
  have hne : [] ∉ expansions.keys := fun hnil => (hterms [] hnil).1 rfl
  rw [← stands_iff_of_alone halone hterm (hterms term hterm).1]
  generalize hts : splitToken expansions t = ts
  cases hts ▸ wrapped_splitToken hne t with
  | free hfree =>
    constructor
    · rintro ⟨expansion,as,bs,-,heq,-⟩
      have hlength := congrArg List.length heq
      simp only [abbreviated,List.length_append,List.length_cons,List.length_nil] at hlength
      omega
    · exact fun hstands => absurd ⟨p,term,s,hcontent,hstands⟩ hfree
  | found _ hread =>
    exact ⟨fun hwraps => hread.stands hwraps,fun hstands => hread.wraps hterms hcontent halone hstands⟩

end Wraps

section Stream

variable {expansions : Dictionary Text}

theorem replaceChildren_append (depth : Int) (xs ys : List Token) :
    replaceChildren expansions depth (xs ++ ys) = replaceChildren expansions depth xs ++
      replaceChildren expansions (depthAfter depth xs) ys := by
  induction xs generalizing depth with
  | nil => rfl
  | cons t xs ih =>
    rw [List.cons_append,replaceChildren_cons,ih,replaceChildren_cons,List.append_assoc,
      depthAfter_cons]

/-- What becomes of a text that no abbreviation element encloses, and of what is around it. -/
theorem replace_append_cons {pre post xs ys : List Token} {u t : Token}
    (hvisible : u.isVisibleInline = true) (hchildren : u.children = some (xs ++ t::ys))
    (hkind : t.kind = "text") (hdepth : depthAfter 0 xs ≤ 0) :
    replace expansions (pre ++ u::post) = replace expansions pre ++
      { u with children := some (replaceChildren expansions 0 xs ++ (splitToken expansions t ++
        replaceChildren expansions (depthAfter 0 xs) ys)) }::replace expansions post := by
  have htext : (t.kind = "text" ∧ depthBehind (depthAfter 0 xs) t ≤ 0) :=
    ⟨hkind,by rwa [depthBehind_of_text hkind]⟩
  simp only [replace_eq_map,List.map_append,List.map_cons]
  rw [replaceToken,if_pos hvisible,hchildren,Option.map_some,replaceChildren_append,
    replaceChildren_cons,if_pos htext,depthBehind_of_text hkind]

/-- In every visible text outside abbreviation elements, a term that stands alone is wrapped as itself and
with its own expansion exactly when it begins and ends with a character of a word. -/
theorem standalone_wrapped_iff (expansions : Dictionary Text)
    (hterms : ∀ term ∈ expansions.keys, Solid term) (pre post : List Token) {xs ys : List Token}
    {u t : Token}
    (hvisible : u.isVisibleInline = true) (hchildren : u.children = some (xs ++ t::ys))
    (hkind : t.kind = "text") (hdepth : depthAfter 0 xs ≤ 0) {front term back : Text}
    (hcontent : t.content = front ++ (term ++ back)) (hterm : term ∈ expansions.keys)
    (halone : Alone front back) :
    ∃ xs' ts ys', replace expansions (pre ++ u::post) = replace expansions pre ++
        { u with children := some (xs' ++ (ts ++ ys')) }::replace expansions post ∧
      textOf xs' = textOf xs ∧ textOf ts = t.content ∧ textOf ys' = textOf ys ∧
      (Wraps expansions front term back ts ↔ WordEnded term) := by
  have hne : [] ∉ expansions.keys := fun hnil => (hterms [] hnil).1 rfl
  exact ⟨_,_,_,replace_append_cons hvisible hchildren hkind hdepth,
    (rewritten_replaceChildren hne 0 xs).textOf_eq,(wrapped_splitToken hne t).textOf_eq,
    (rewritten_replaceChildren hne _ ys).textOf_eq,wraps_splitToken_iff hterms hcontent hterm halone⟩

/-- A term with marks inside, between a shorter term and another with its own beginning. -/
theorem standalone_wrapped_iff_inner :
    let expansions : Dictionary Text := [("A".toList,"first".toList),("A-Z".toList,"all".toList)]
    let t : Token := Token.ofText "A A-Z A-Z0".toList
    let u : Token := { Token.make "inline" "" 0 with children := some [t] }
    (∀ term ∈ expansions.keys, Solid term) ∧ u.isVisibleInline = true ∧ depthAfter 0 [] ≤ 0 ∧
      "A-Z".toList ∈ expansions.keys ∧ Alone "A ".toList " A-Z0".toList ∧
      ∃ xs' ts ys', replace expansions [u] = [{ u with children := some (xs' ++ (ts ++ ys')) }] ∧
        textOf ts = t.content ∧ Wraps expansions "A ".toList "A-Z".toList " A-Z0".toList ts := by
  intro expansions t u
  have hterms : ∀ term ∈ expansions.keys, Solid term := by decide
  have halone : Alone "A ".toList " A-Z0".toList := ⟨rfl,rfl⟩
  have hmem : "A-Z".toList ∈ expansions.keys := by decide
  have hcontent : t.content = "A ".toList ++ ("A-Z".toList ++ " A-Z0".toList) := by decide
  have hchildren : u.children = some ([] ++ t::[]) := rfl
  obtain ⟨xs',ts,ys',hreplace,-,htext,-,hwraps⟩ :=
    standalone_wrapped_iff expansions hterms [] [] rfl hchildren rfl (by decide) hcontent hmem halone
  exact ⟨hterms,rfl,by decide,hmem,halone,xs',ts,ys',hreplace,htext,hwraps.mpr (by decide)⟩

/-- A term that ends with marks is not wrapped, and a shorter term is wrapped in its place. -/
theorem not_wraps_of_marks :
    let expansions : Dictionary Text := [("C".toList,"see".toList),("C++".toList,"see plus plus".toList)]
    let t : Token := Token.ofText "C++ code".toList
    (∀ term ∈ expansions.keys, Solid term) ∧ "C++".toList ∈ expansions.keys ∧
      Alone [] " code".toList ∧
      splitToken expansions t = abbreviated "see".toList "C".toList ++ [Token.ofText "++ code".toList] ∧
      ¬Wraps expansions [] "C++".toList " code".toList (splitToken expansions t) := by
  intro expansions t
  have hterms : ∀ term ∈ expansions.keys, Solid term := by decide
  have halone : Alone [] " code".toList := ⟨rfl,rfl⟩
  have hmem : "C++".toList ∈ expansions.keys := by decide
  refine ⟨hterms,hmem,halone,by rfl,fun hwraps => ?_⟩
  exact absurd ((wraps_splitToken_iff hterms (by rfl) hmem halone).mp hwraps) (by decide)

end Stream

end Abbreviation
end Longform
