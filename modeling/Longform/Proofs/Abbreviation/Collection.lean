import Longform.Proofs.Abbreviation.Definition

/-! Collecting definitions over a stream. Paragraphs cannot overlap, so the paragraphs that define terms
are found whatever stands between them: they are hidden, the rest is left alone, and streams that no
paragraph joins may be collected from one by one. -/
namespace Longform
namespace Abbreviation

/-- Three tokens that are a paragraph. -/
structure IsParagraph (opening inlineToken closing : Token) : Prop where
  opening_kind : opening.kind = "paragraph_open"
  inline_kind : inlineToken.kind = "inline"
  closing_kind : closing.kind = "paragraph_close"

/-- A paragraph begins at a place of a stream. -/
def ParagraphAt (ts : List Token) (i : ℕ) (opening inlineToken closing : Token) : Prop :=
  IsParagraph opening inlineToken closing ∧ ∃ rest, ts.drop i = opening::inlineToken::closing::rest

/-- A paragraph that defines terms begins at a place of a stream. -/
def DefinesAt (ts : List Token) (i : ℕ) (entries : List (Text × Text)) : Prop :=
  ∃ a b c, ParagraphAt ts i a b c ∧ Definitional b entries

/-- The tokens of paragraphs that define terms are hidden and have no text left, and nothing else changes,
neither in them nor around them. -/
structure HidesDefinitions (ts us : List Token) : Prop where
  length_eq : us.length = ts.length
  hidden : ∀ i a b c entries, ParagraphAt ts i a b c → Definitional b entries →
    ParagraphAt us i { a with hidden := true } { b with hidden := true, children := some [] }
      { c with hidden := true }
  unchanged : ∀ k, (∀ i entries, DefinesAt ts i entries → k < i ∨ i + 3 ≤ k) → us[k]? = ts[k]?

/-- The definitions of every paragraph by the place where it begins, none where none begins. -/
def ListsDefinitions (ts : List Token) (ds : ℕ → List (Text × Text)) : Prop :=
  ∀ i, DefinesAt ts i (ds i) ∨ ds i = [] ∧ ∀ entries, ¬DefinesAt ts i entries

/-- No paragraph has tokens of both streams. -/
def Apart (ts us : List Token) : Prop :=
  ∀ i a b c, ParagraphAt (ts ++ us) i a b c → i + 3 ≤ ts.length ∨ ts.length ≤ i

/-- A stream, what is left of it and the definitions found, one step for each paragraph that defines
terms and one for each other token. -/
inductive Collected : List Token → List Token → List (Text × Text) → Prop
  | nil : Collected [] [] []
  | paragraph {a b c : Token} {ts us : List Token} {entries es : List (Text × Text)}
      (hpar : IsParagraph a b c) (hdef : Definitional b entries) (rest : Collected ts us es) :
      Collected (a::b::c::ts) ({ a with hidden := true }::
        { b with hidden := true, children := some [] }::{ c with hidden := true }::us) (entries ++ es)
  | keep {t : Token} {ts us : List Token} {es : List (Text × Text)}
      (hkeep : ∀ entries, ¬DefinesAt (t::ts) 0 entries) (rest : Collected ts us es) :
      Collected (t::ts) (t::us) es

section Place

variable {a b c x y z t : Token} {ts us : List Token} {entries : List (Text × Text)} {i : ℕ}

theorem not_paragraphAt_of_kind (h : t.kind ≠ "paragraph_open") : ¬ParagraphAt (t::ts) 0 a b c := by
  rintro ⟨hpar,_,hdrop⟩
  cases hdrop
  exact h hpar.opening_kind

theorem not_definesAt_of_kind (h : t.kind ≠ "paragraph_open") : ¬DefinesAt (t::ts) 0 entries := by
  rintro ⟨_,_,_,hat,-⟩
  exact not_paragraphAt_of_kind h hat

theorem IsParagraph.inline_ne (h : IsParagraph a b c) : b.kind ≠ "paragraph_open" := by
  rw [h.inline_kind]
  decide

theorem IsParagraph.closing_ne (h : IsParagraph a b c) : c.kind ≠ "paragraph_open" := by
  rw [h.closing_kind]
  decide

/-- No paragraph begins inside of another. -/
theorem IsParagraph.paragraphAt_cases (h : IsParagraph a b c) (hat : ParagraphAt (a::b::c::ts) i x y z) :
    (i = 0 ∧ x = a ∧ y = b ∧ z = c) ∨ ∃ j, i = j + 3 ∧ ParagraphAt ts j x y z := by
  rcases i with _ | _ | _ | j
  · obtain ⟨-,_,hdrop⟩ := hat
    cases hdrop
    exact .inl ⟨rfl,rfl,rfl,rfl⟩
  · exact absurd hat (not_paragraphAt_of_kind h.inline_ne)
  · exact absurd hat (not_paragraphAt_of_kind h.closing_ne)
  · exact .inr ⟨j,rfl,hat⟩

theorem not_definesAt_nil : ¬DefinesAt [] i entries := by
  rintro ⟨_,_,_,⟨-,_,hdrop⟩,-⟩
  simp at hdrop

/-- Without content nothing is defined. -/
theorem not_definitional_of_children (h : t.children = some []) : ¬Definitional t entries := by
  intro hdef
  have hlines := hdef.defines
  rw [h] at hlines
  cases hlines
  exact hdef.ne_nil rfl

end Place

section Collected

variable {ts us ts' us' : List Token} {t : Token} {es es' : List (Text × Text)} {found : Dictionary Text}

theorem collectFrom_keep (h : ∀ entries, ¬DefinesAt (t::ts) 0 entries) :
    collectFrom found (t::ts) = (t::(collectFrom found ts).1,(collectFrom found ts).2) := by
  rcases ts with _ | ⟨b,_ | ⟨c,r⟩⟩
  · rfl
  · rfl
  · rw [collectFrom]
    split
    · rename_i hkinds
      simp only [Bool.and_eq_true,decide_eq_true_eq] at hkinds
      have hnone : paragraphDefinitions? b = none := paragraphDefinitions?_eq_none_iff.mpr
        fun entries hdef => h entries ⟨t,b,c,⟨⟨hkinds.1.1,hkinds.1.2,hkinds.2⟩,r,rfl⟩,hdef⟩
      rw [hnone]
    · rfl

theorem Collected.collectFrom_eq (h : Collected ts us es) (found : Dictionary Text) :
    collectFrom found ts = (us,found.merge es) := by
  induction h generalizing found with
  | nil => rfl
  | @paragraph a b c ts us entries es hpar hdef rest ih =>
    have hsome : paragraphDefinitions? b = some (Dictionary.ofEntries entries) :=
      paragraphDefinitions?_eq_some_iff.mpr ⟨entries,hdef,rfl⟩
    rw [collectFrom,if_pos (by simp [hpar.opening_kind,hpar.inline_kind,hpar.closing_kind]),hsome]
    simp only [ih,Dictionary.merge_ofEntries,Dictionary.merge_append]
    rfl
  | keep hkeep rest ih => rw [collectFrom_keep hkeep,ih]

theorem exists_collected (ts : List Token) : ∃ us es, Collected ts us es := by
  cases ts with
  | nil => exact ⟨[],[],.nil⟩
  | cons t ts =>
    by_cases h : ∃ entries, DefinesAt (t::ts) 0 entries
    · obtain ⟨entries,a,b,c,⟨hpar,rest,hdrop⟩,hdef⟩ := h
      cases hdrop
      obtain ⟨us,es,hrest⟩ := exists_collected rest
      exact ⟨_,_,.paragraph hpar hdef hrest⟩
    · obtain ⟨us,es,hrest⟩ := exists_collected ts
      exact ⟨_,_,.keep (not_exists.mp h) hrest⟩
termination_by ts.length

theorem Collected.collect_eq (h : Collected ts us es) : collect ts = (us,Dictionary.ofEntries es) :=
  h.collectFrom_eq []

theorem Collected.hidesDefinitions (h : Collected ts us es) : HidesDefinitions ts us := by
  induction h with
  | nil => exact ⟨rfl,fun _ _ _ _ _ _ _ => by simp_all [ParagraphAt],fun _ _ => rfl⟩
  | @paragraph a b c ts us entries es hpar hdef rest ih =>
    refine ⟨?_,?_,?_⟩
    · simp only [List.length_cons,ih.length_eq]
    · intro i x y z entries' hat hdef'
      rcases hpar.paragraphAt_cases hat with ⟨rfl,rfl,rfl,rfl⟩ | ⟨j,rfl,hat⟩
      · exact ⟨⟨hpar.opening_kind,hpar.inline_kind,hpar.closing_kind⟩,us,rfl⟩
      · exact ih.hidden j x y z entries' hat hdef'
    · intro k hk
      have hlt := hk 0 entries ⟨a,b,c,⟨hpar,ts,rfl⟩,hdef⟩
      obtain ⟨j,rfl⟩ : ∃ j, k = j + 3 := ⟨k - 3,by omega⟩
      refine ih.unchanged j fun i entries' hat => ?_
      have hshift := hk (i + 3) entries' hat
      omega
  | @keep t ts us es hkeep rest ih =>
    refine ⟨?_,?_,?_⟩
    · simp only [List.length_cons,ih.length_eq]
    · intro i x y z entries' hat hdef'
      cases i with
      | zero => exact absurd ⟨x,y,z,hat,hdef'⟩ (hkeep entries')
      | succ i => exact ih.hidden i x y z entries' hat hdef'
    · intro k hk
      cases k with
      | zero => rfl
      | succ k =>
        refine ih.unchanged k fun i entries' hat => ?_
        have hshift := hk (i + 1) entries' hat
        omega

/-- Definitions by place, with those of one more token in front. -/
def ahead (entries : List (Text × Text)) (ds : ℕ → List (Text × Text)) : ℕ → List (Text × Text)
  | 0 => entries
  | i + 1 => ds i

theorem flatMap_range_ahead (entries : List (Text × Text)) (ds : ℕ → List (Text × Text)) (n : ℕ) :
    (List.range (n + 1)).flatMap (ahead entries ds) = entries ++ (List.range n).flatMap ds := by
  rw [List.range_succ_eq_map,List.flatMap_cons,List.flatMap_map]
  rfl

theorem ListsDefinitions.cons {ds : ℕ → List (Text × Text)} (h : ListsDefinitions ts ds)
    {entries : List (Text × Text)} (ht : DefinesAt (t::ts) 0 entries ∨
      entries = [] ∧ ∀ entries', ¬DefinesAt (t::ts) 0 entries') :
    ListsDefinitions (t::ts) (ahead entries ds) := by
  intro i
  cases i with
  | zero => exact ht
  | succ i => exact h i

theorem Collected.exists_listsDefinitions (h : Collected ts us es) :
    ∃ ds, ListsDefinitions ts ds ∧ es = (List.range ts.length).flatMap ds := by
  induction h with
  | nil => exact ⟨fun _ => [],fun _ => .inr ⟨rfl,fun _ => not_definesAt_nil⟩,rfl⟩
  | @paragraph a b c ts us entries es hpar hdef rest ih =>
    obtain ⟨ds,hds,rfl⟩ := ih
    have hclosing : ListsDefinitions (c::ts) (ahead [] ds) :=
      hds.cons (.inr ⟨rfl,fun _ => not_definesAt_of_kind hpar.closing_ne⟩)
    have hinline : ListsDefinitions (b::c::ts) (ahead [] (ahead [] ds)) :=
      hclosing.cons (.inr ⟨rfl,fun _ => not_definesAt_of_kind hpar.inline_ne⟩)
    refine ⟨ahead entries (ahead [] (ahead [] ds)),
      hinline.cons (.inl ⟨a,b,c,⟨hpar,ts,rfl⟩,hdef⟩),?_⟩
    simp only [List.length_cons,flatMap_range_ahead,List.nil_append]
  | keep hkeep rest ih =>
    obtain ⟨ds,hds,rfl⟩ := ih
    refine ⟨ahead [] ds,hds.cons (.inr ⟨rfl,hkeep⟩),?_⟩
    rw [List.length_cons,flatMap_range_ahead,List.nil_append]

/-- A token that opens no paragraph comes from the stream as it is. -/
theorem Collected.eq_cons (h : Collected ts (t::us) es) (ht : t.kind ≠ "paragraph_open") :
    ∃ ts', ts = t::ts' ∧ Collected ts' us es := by
  cases h with
  | paragraph hpar _ _ => exact absurd hpar.opening_kind ht
  | keep _ rest => exact ⟨_,rfl,rest⟩

/-- Nothing is left to collect. -/
theorem Collected.again (h : Collected ts us es) : Collected us us [] := by
  induction h with
  | nil => exact .nil
  | @paragraph a b c ts us entries es hpar hdef rest ih =>
    refine .keep ?_ (.keep (fun _ => not_definesAt_of_kind hpar.inline_ne)
      (.keep (fun _ => not_definesAt_of_kind hpar.closing_ne) ih))
    rintro entries' ⟨x,y,z,⟨-,r,hdrop⟩,hdef'⟩
    cases hdrop
    exact not_definitional_of_children rfl hdef'
  | @keep t ts us es hkeep rest ih =>
    refine .keep ?_ ih
    -- a paragraph would have stood here before: only what opens a paragraph is changed in front of it
    rintro entries' ⟨x,y,z,⟨hpar,r,hdrop⟩,hdef'⟩
    cases hdrop
    obtain ⟨ts',rfl,rest'⟩ := rest.eq_cons hpar.inline_ne
    obtain ⟨r',rfl,-⟩ := rest'.eq_cons hpar.closing_ne
    exact hkeep entries' ⟨t,y,z,⟨hpar,r',rfl⟩,hdef'⟩

theorem Apart.of_cons (h : Apart (t::ts) us) : Apart ts us := by
  intro i a b c hat
  have hshift := h (i + 1) a b c hat
  rw [List.length_cons] at hshift
  omega

theorem Collected.append (h : Collected ts us es) (h' : Collected ts' us' es') (hapart : Apart ts ts') :
    Collected (ts ++ ts') (us ++ us') (es ++ es') := by
  induction h with
  | nil => exact h'
  | @paragraph a b c ts us entries es hpar hdef rest ih =>
    rw [List.append_assoc]
    exact .paragraph hpar hdef (ih hapart.of_cons.of_cons.of_cons)
  | @keep t ts us es hkeep rest ih =>
    refine .keep ?_ (ih hapart.of_cons)
    rintro entries ⟨x,y,z,hat,hdef⟩
    have hlen := (hapart 0 x y z hat).resolve_right (by simp)
    obtain ⟨hpar,r,hdrop⟩ := hat
    rcases ts with _ | ⟨b,_ | ⟨c,r'⟩⟩
    · simp at hlen
    · simp at hlen
    · cases hdrop
      exact hkeep entries ⟨t,y,z,⟨hpar,r',rfl⟩,hdef⟩

end Collected

/-- Collecting hides the paragraphs that define terms and gives their definitions in order, the last one of
a term winning. Nothing is left to collect, and streams that no paragraph joins are collected from apart. -/
theorem collect_by_paragraphs (ts : List Token) :
    HidesDefinitions ts (collect ts).1 ∧
    (∃ ds, ListsDefinitions ts ds ∧
      (collect ts).2 = Dictionary.ofEntries ((List.range ts.length).flatMap ds) ∧
      ∀ before term expansion after,
        (List.range ts.length).flatMap ds = before ++ (term,expansion)::after →
        term ∉ Dictionary.keys after → (collect ts).2.find? term = some expansion) ∧
    collect (collect ts).1 = ((collect ts).1,[]) ∧
    ∀ us, Apart ts us →
      collect (ts ++ us) = ((collect ts).1 ++ (collect us).1,(collect ts).2.merge (collect us).2) := by
  obtain ⟨ts',es,hts⟩ := exists_collected ts
  obtain ⟨ds,hds,hes⟩ := hts.exists_listsDefinitions
  rw [hts.collect_eq]
  refine ⟨hts.hidesDefinitions,⟨ds,hds,congrArg _ hes,?_⟩,hts.again.collect_eq,?_⟩
  · intro before term expansion after hsplit hlast
    rw [hes,hsplit]
    exact Dictionary.find?_ofEntries_append before after expansion hlast
  · intro us hapart
    obtain ⟨us',es',hus⟩ := exists_collected us
    rw [hus.collect_eq,(hts.append hus hapart).collect_eq,Dictionary.ofEntries_append,
      Dictionary.merge_ofEntries]

/-- A paragraph of the given lines, with a break behind each. -/
def paragraph (ls : List String) : List Token :=
  [Token.make "paragraph_open" "p" 1,
    { Token.make "inline" "" 0 with
      children := some (ls.flatMap fun l => [Token.ofText l.toList,Token.make "softbreak" "br" 0]) },
    Token.make "paragraph_close" "p" (-1)]

/-- The first paragraph has a blank line, the second defines one of its terms again. -/
theorem collect_by_paragraphs_redefined :
    Apart (paragraph ["*[W3C]: Old","","*[CSS]: Style"]) (paragraph ["*[W3C]: New"]) ∧
    (collect (paragraph ["*[W3C]: Old","","*[CSS]: Style"] ++ paragraph ["*[W3C]: New"])).2 =
      [("W3C".toList,"New".toList),("CSS".toList,"Style".toList)] := by
  have hapart : Apart (paragraph ["*[W3C]: Old","","*[CSS]: Style"]) (paragraph ["*[W3C]: New"]) := by
    intro i a b c hat
    rcases i with _ | _ | _ | i
    · exact .inl (Nat.le_refl _)
    · exact absurd hat (not_paragraphAt_of_kind (by decide))
    · exact absurd hat (not_paragraphAt_of_kind (by decide))
    · exact .inr (Nat.le_add_left ..)
  refine ⟨hapart,?_⟩
  rw [(collect_by_paragraphs _).2.2.2 _ hapart]
  decide

end Abbreviation
end Longform
