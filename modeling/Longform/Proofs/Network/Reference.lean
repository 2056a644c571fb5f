import Longform.Network.Connection
import Longform.Proofs.Text.Marks
import Longform.Proofs.Text.Search

/-! References as they are written, and where a line has them. A line is read from left to right: a
reference begins at the first parenthesis that opens one, and the next is looked for behind it. -/
namespace Longform
namespace Network

/-- A name that parentheses can hold. -/
structure IsName (name : Text) : Prop where
  ne_nil : name ≠ []
  bar : '|' ∉ name
  close : ')' ∉ name

instance (name : Text) : Decidable (IsName name) :=
  decidable_of_iff (name ≠ [] ∧ '|' ∉ name ∧ ')' ∉ name)
    ⟨fun h => ⟨h.1,h.2.1,h.2.2⟩,fun h => ⟨h.ne_nil,h.bar,h.close⟩⟩

namespace Reference

def text (x : Reference) : Text :=
  '(' :: (x.name ++ ((x.suffix.map ('|' :: ·)).getD [] ++ [')']))

/-- A reference that can be written. -/
structure Written (x : Reference) : Prop where
  name : IsName x.name
  suffix : ∀ a ∈ x.suffix, ')' ∉ a

theorem read?_append {x : Reference} (hx : x.Written) (rest : Text) :
    read? (x.text ++ rest) = some (x,rest) := by
  obtain ⟨name,suffix⟩ := x
  obtain ⟨⟨hne,hbar,hclose⟩,hsuffix⟩ := hx
  have hname : ∀ c ∈ name, (decide (c ≠ '|') && decide (c ≠ ')')) = true := by
    intro c hc
    simpa using And.intro (fun h : c = '|' => hbar (h ▸ hc)) (fun h : c = ')' => hclose (h ▸ hc))
  cases suffix with
  | none =>
    obtain ⟨htake,hdrop⟩ := Text.takeWhile_append_stop (r := ')' :: rest) hname (by simp)
    simp only [read?,text,Option.map_none,Option.getD_none,List.nil_append,List.cons_append,
      List.append_assoc,htake,hdrop]
    simp [hne]
  | some a =>
    have ha : ∀ c ∈ a, decide (c ≠ ')') = true := by
      intro c hc
      simpa using fun h : c = ')' => hsuffix a rfl (h ▸ hc)
    obtain ⟨htake,hdrop⟩ := Text.takeWhile_append_stop (r := '|' :: (a ++ ')' :: rest)) hname (by simp)
    obtain ⟨htake',hdrop'⟩ := Text.takeWhile_append_stop (r := ')' :: rest) ha (by simp)
    simp only [read?,text,Option.map_some,Option.getD_some,List.nil_append,List.cons_append,
      List.append_assoc,htake,hdrop,htake',hdrop']
    simp [hne]

theorem eq_append_of_read? {t rest : Text} {x : Reference} (h : read? t = some (x,rest)) :
    x.Written ∧ t = x.text ++ rest := by
  unfold read? at h
  split at h
  · rename_i r
    simp only at h
    generalize hp : (fun c => decide (c ≠ '|') && decide (c ≠ ')')) = p at h
    have hbar := Text.not_mem_takeWhile (p := p) (c := '|') (by simp [← hp]) r
    have hclose := Text.not_mem_takeWhile (p := p) (c := ')') (by simp [← hp]) r
    have hsplit := (List.takeWhile_append_dropWhile (p := p) (l := r)).symm
    split at h
    · simp at h
    · rename_i hne
      have hname : IsName (r.takeWhile p) := ⟨by simpa using hne,hbar,hclose⟩
      split at h
      · rename_i s hs
        simp only [Option.some.injEq,Prod.mk.injEq] at h
        obtain ⟨rfl,rfl⟩ := h
        refine ⟨⟨hname,by simp⟩,?_⟩
        rw [hs] at hsplit
        simpa [text] using hsplit
      · rename_i s hs
        split at h
        · rename_i u hu
          simp only [Option.some.injEq,Prod.mk.injEq] at h
          obtain ⟨rfl,rfl⟩ := h
          have hsuffix := Text.not_mem_takeWhile (p := (· ≠ ')')) (c := ')') (by simp) s
          have hrest := (List.takeWhile_append_dropWhile (p := (· ≠ ')')) (l := s)).symm
          refine ⟨⟨hname,by simpa using hsuffix⟩,?_⟩
          rw [hu] at hrest
          rw [hs,hrest] at hsplit
          simpa [text] using hsplit
        · simp at h
      · simp at h
  · simp at h

/-- A text begins with a reference when one is written there. -/
theorem read?_eq_some_iff {t rest : Text} {x : Reference} :
    read? t = some (x,rest) ↔ x.Written ∧ t = x.text ++ rest := by
  constructor
  · exact eq_append_of_read?
  · rintro ⟨hx,rfl⟩
    exact read?_append hx rest

theorem length_of_read? {t rest : Text} {x : Reference} (h : read? t = some (x,rest)) :
    rest.length < t.length := by
  rw [(eq_append_of_read? h).2]
  simp [text]
  omega

/-- A reference that can be written down. -/
structure Spelled extends Reference where
  written : toReference.Written

def Spelled.text (x : Spelled) : Text := x.toReference.text

theorem Spelled.text_ne_nil (x : Spelled) : x.text ≠ [] := List.cons_ne_nil _ _

theorem read?_eq_none {t : Text} (h : ¬Text.BeginsMark Spelled.text t) : read? t = none := by
  rw [Option.eq_none_iff_forall_ne_some]
  rintro ⟨x,rest⟩ hread
  obtain ⟨hx,ht⟩ := eq_append_of_read? hread
  exact h ⟨⟨x,hx⟩,rest,ht⟩

/-- A parenthesis with a name behind it. -/
def opens : Text → Bool
  | '(' :: r => r.head? ≠ some ')' && r.head? ≠ some '|'
  | _ => false

theorem opens_cons_of_ne {c : Char} (h : c ≠ '(') (r : Text) : opens (c::r) = false := by
  unfold opens
  split
  · rename_i heq
    exact absurd (List.cons.inj heq).1 h
  · rfl

/-- No reference begins where no parenthesis has a name behind it. -/
theorem read?_of_not_opens {c : Char} {r : Text} (h : opens (c::r) = false) (rest : Text) :
    read? (c::(r ++ rest)) = none := by
  by_cases hc : c = '('
  · subst hc
    simp only [opens,ne_eq,decide_not,Bool.and_eq_false_iff,Bool.not_eq_false',decide_eq_true_eq] at h
    rcases h with h | h <;> obtain ⟨r',rfl⟩ := List.head?_eq_some_iff.mp h <;> simp [read?]
  · unfold read?
    split
    · rename_i heq
      exact absurd (List.cons.inj heq).1 hc
    · rfl

/-- A parenthesis with a name behind it opens a reference when one closes at all. -/
theorem exists_read? {r : Text} (hfirst : ∀ c ∈ r.head?, c ≠ '|' ∧ c ≠ ')') (hclose : ')' ∈ r) :
    ∃ x rest, read? ('(' :: r) = some (x,rest) := by
  obtain ⟨d,hd⟩ := Option.isSome_iff_exists.mp
    (List.find?_isSome (p := fun c => c = '|' || c = ')').mpr ⟨')',hclose,by simp⟩)
  obtain ⟨hstop,name,tail,rfl,hname⟩ := List.find?_eq_some_iff_append.mp hd
  simp only [Bool.or_eq_true,decide_eq_true_eq] at hstop
  have hbar : '|' ∉ name := fun hm => by simpa using hname _ hm
  have hparen : ')' ∉ name := fun hm => by simpa using hname _ hm
  have hne : name ≠ [] := by
    rintro rfl
    have hhead := hfirst d (by simp)
    rcases hstop with h | h <;> simp [h] at hhead
  rcases hstop with rfl | rfl
  · have hmem : ')' ∈ tail := by simpa [hparen] using hclose
    obtain ⟨a,b,rfl,ha⟩ := List.eq_append_cons_of_mem hmem
    refine ⟨⟨name,some a⟩,b,read?_eq_some_iff.mpr ⟨⟨⟨hne,hbar,hparen⟩,by simpa using ha⟩,?_⟩⟩
    simp [text]
  · refine ⟨⟨name,none⟩,tail,read?_eq_some_iff.mpr ⟨⟨⟨hne,hbar,hparen⟩,by simp⟩,?_⟩⟩
    simp [text]

end Reference

/-! References of a line. -/

theorem referencesFrom_of_le {m n : Nat} {t : Text} (hm : t.length ≤ m) (hn : t.length ≤ n)
    (before : Text) : referencesFrom m before t = referencesFrom n before t := by
  induction m generalizing n t before with
  | zero =>
    have hnil : t = [] := List.eq_nil_of_length_eq_zero (Nat.le_zero.mp hm)
    cases n <;> simp [hnil,referencesFrom]
  | succ m ih =>
    cases t with
    | nil => cases n <;> simp [referencesFrom]
    | cons c r =>
      obtain ⟨n,rfl⟩ : ∃ k, n = k + 1 := ⟨n - 1,by simp at hn; omega⟩
      simp only [List.length_cons] at hm hn
      rw [referencesFrom,referencesFrom]
      split
      · rename_i x s hread
        have hlt := Reference.length_of_read? hread
        simp only [List.length_cons] at hlt
        rw [ih (n := n) (by omega) (by omega)]
      · exact ih (by omega) (by omega) _

/-- The references of a text with the text in front of each, where `before` is in front of all. -/
def referencesBehind (before t : Text) : List (Text × Reference) := referencesFrom t.length before t

@[simp] theorem referencesBehind_nil (before : Text) : referencesBehind before [] = [] := rfl

theorem referencesBehind_text {x : Reference} (hx : x.Written) (before rest : Text) :
    referencesBehind before (x.text ++ rest) = (before,x)::referencesBehind [] rest := by
  have hread := Reference.read?_append hx rest
  have hlt := Reference.length_of_read? hread
  obtain ⟨c,r,hcons⟩ : ∃ c r, x.text ++ rest = c::r := ⟨_,_,rfl⟩
  rw [hcons] at hread hlt ⊢
  simp only [List.length_cons] at hlt
  rw [referencesBehind,List.length_cons,referencesFrom]
  simp only [hread]
  rw [referencesFrom_of_le (by omega) Nat.le.refl,referencesBehind]

theorem referencesBehind_cons {c : Char} {r : Text} (h : Reference.read? (c::r) = none)
    (before : Text) : referencesBehind before (c::r) = referencesBehind (before ++ [c]) r := by
  rw [referencesBehind,List.length_cons,referencesFrom]
  simp only [h]
  rfl

/-- Text in which no reference begins stands in front of the next one. -/
theorem referencesBehind_plain {t behind : Text} (h : ¬Text.MarkIn Reference.Spelled.text t behind)
    (before : Text) : referencesBehind before (t ++ behind) = referencesBehind (before ++ t) behind := by
  induction t generalizing before with
  | nil => simp
  | cons c t ih =>
    rw [Text.markIn_cons_iff,not_or] at h
    rw [List.cons_append,referencesBehind_cons (Reference.read?_eq_none h.1),ih h.2]
    simp

theorem map_referencesBehind {t last : Text} {ms : List (Text × Reference.Spelled)}
    (h : Text.Parted Reference.Spelled.text t ms last) (before : Text) :
    (referencesBehind before t).map (·.2) = ms.map (·.2.toReference) := by
  induction h generalizing before with
  | @last t plain =>
    have hplain := referencesBehind_plain plain before
    rw [List.append_nil] at hplain
    simp [hplain]
  | @mark t s last x ms plain rest ih =>
    rw [referencesBehind_plain plain,Reference.Spelled.text,referencesBehind_text x.written,
      List.map_cons,ih,List.map_cons]

/-- The references of a line from left to right: none begins in the text around them. -/
def Refers (line : Text) (xs : List Reference) : Prop :=
  ∃ ms last, Text.Parted Reference.Spelled.text line ms last ∧ ms.map (·.2.toReference) = xs

theorem refers_iff {line : Text} {xs : List Reference} :
    Refers line xs ↔ (references line).map (·.2) = xs := by
  constructor
  · rintro ⟨ms,last,hline,rfl⟩
    exact map_referencesBehind hline []
  · rintro rfl
    obtain ⟨ms,last,hline⟩ := Text.exists_parted Reference.Spelled.text_ne_nil line
    exact ⟨ms,last,hline,(map_referencesBehind hline []).symm⟩

/-- No parenthesis of the text has a name behind it. -/
def isUnopened : Text → Bool
  | [] => true
  | c::r => !Reference.opens (c::r) && isUnopened r

theorem isUnopened_of_not_mem {t : Text} (h : '(' ∉ t) : isUnopened t = true := by
  induction t with
  | nil => rfl
  | cons c t ih =>
    rw [List.mem_cons,not_or] at h
    simp [isUnopened,Reference.opens_cons_of_ne (Ne.symm h.1),ih h.2]

/-- A text is cut in front of the first parenthesis that has a name behind it. -/
theorem exists_opening {t : Text} (h : isUnopened t = false) :
    ∃ u w, t = u ++ '(' :: w ∧ isUnopened u = true ∧ Reference.opens ('(' :: w) = true := by
  induction t with
  | nil => simp [isUnopened] at h
  | cons c t ih =>
    by_cases hc : Reference.opens (c::t) = true
    · by_cases hparen : c = '('
      · exact ⟨[],t,by simp [hparen],rfl,hparen ▸ hc⟩
      · simp [Reference.opens_cons_of_ne hparen] at hc
    · have ht : isUnopened t = false := by simpa [isUnopened,hc] using h
      obtain ⟨u,w,rfl,hu,hw⟩ := ih ht
      have hcu : Reference.opens (c::u) = false := by
        by_cases hparen : c = '('
        · cases u with
          | nil => simp [hparen,Reference.opens] at hc
          | cons d u => simpa [hparen,Reference.opens] using hc
        · exact Reference.opens_cons_of_ne hparen u
      exact ⟨c::u,w,rfl,by simp [isUnopened,hcu,hu],hw⟩

theorem not_markIn_of_isUnopened {t : Text} (h : isUnopened t = true) (behind : Text) :
    ¬Text.MarkIn Reference.Spelled.text t behind := by
  induction t with
  | nil => exact Text.not_markIn_nil
  | cons c t ih =>
    simp only [isUnopened,Bool.and_eq_true,Bool.not_eq_true'] at h
    rw [Text.markIn_cons_iff,not_or]
    refine ⟨?_,ih h.2⟩
    rintro ⟨x,rest,hbegins⟩
    have hread := Reference.read?_append x.written rest
    rw [← Reference.Spelled.text,← hbegins,Reference.read?_of_not_opens h.1] at hread
    cases hread

theorem referencesBehind_append {t : Text} (h : isUnopened t = true) (before rest : Text) :
    referencesBehind before (t ++ rest) = referencesBehind (before ++ t) rest :=
  referencesBehind_plain (not_markIn_of_isUnopened h rest) before

end Network
end Longform
