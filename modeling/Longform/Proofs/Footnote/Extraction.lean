import Longform.Proofs.Footnote.Chapters
import Longform.Proofs.Text.Search

/-! Which lines of a text belong to notes. One flag, whether the line above belongs to a note, decides
every line; what is kept is fenced as before and has no notes any more. -/
namespace Longform
namespace Footnote

/-- A line `[^id]: content`. Blanks in front of the content do not count; of blanks alone the last is
the content. -/
structure IsDefinition (line id content : Text) : Prop where
  id_ne_nil : id ≠ []
  bracket : ']' ∉ id
  line_eq : ∃ gap, (∀ c ∈ gap, Text.isBlank c = true) ∧
    line = "[^".toList ++ (id ++ ']' :: ':' :: (gap ++ content))
  content : ∃ c r, content = c::r ∧ (Text.isBlank c = true → r = [])

/-- A line that begins with four spaces or a tab. -/
def IsIndented (line : Text) : Prop := ∃ r, line = "    ".toList ++ r ∨ line = '\t' :: r

theorem continues_iff {line : Text} : continues line = true ↔ IsIndented line := by
  rw [continues,Bool.or_eq_true,Text.startsWith_iff,Text.startsWith_iff,IsIndented,exists_or]
  rfl

/-- The content behind the colon of a definition. -/
theorem dropWhile_gap {gap content : Text} {c : Char} {r : Text}
    (hgap : ∀ c ∈ gap, Text.isBlank c = true) (hcontent : content = c::r)
    (hc : Text.isBlank c = false) : (gap ++ content).dropWhile Text.isBlank = content := by
  rw [List.dropWhile_append_of_pos hgap,hcontent,List.dropWhile_cons_of_neg (by simp [hc])]

theorem definition?_eq_some_iff {line id content : Text} :
    definition? line = some (id,content) ↔ IsDefinition line id content := by
  constructor
  · intro h
    unfold definition? at h
    split at h
    · cases h
    rename_i r hr
    split at h
    · rename_i id' s hcut
      obtain ⟨happ,hbracket⟩ := Text.eq_append_of_cutAt hcut
      have hline := Text.eq_append_of_after? hr
      split at h
      · cases h
      rename_i hid
      have hne : id' ≠ [] := by simpa using hid
      have hsplit := (List.takeWhile_append_dropWhile (p:=Text.isBlank) (l:=s)).symm
      have hblank : ∀ c ∈ s.takeWhile Text.isBlank, Text.isBlank c = true :=
        List.all_eq_true.mp List.all_takeWhile
      split at h
      · cases h
      · rename_i c hdrop hlast
        cases h
        obtain ⟨gap,rfl⟩ := List.getLast?_eq_some_iff.mp hlast
        rw [hdrop,List.append_nil] at hsplit
        rw [← hsplit] at hblank
        refine ⟨hne,hbracket,⟨gap,fun d hd => hblank d (by simp [hd]),?_⟩,c,[],rfl,fun _ => rfl⟩
        rw [hline,happ]
      · rename_i content' _ hnil hlast
        cases h
        obtain ⟨c,r,hcons⟩ : ∃ c r, s.dropWhile Text.isBlank = c::r := by
          refine List.exists_cons_of_ne_nil fun hdrop => ?_
          cases hs : s.getLast? with
          | none => exact hnil hdrop hs
          | some c => exact hlast c hdrop hs
        have hc : Text.isBlank c = false := by
          have hhead := List.head?_dropWhile_not Text.isBlank s
          rw [hcons] at hhead
          simpa using hhead
        refine ⟨hne,hbracket,⟨s.takeWhile Text.isBlank,hblank,?_⟩,c,r,hcons,fun h => ?_⟩
        · rw [hline,happ,← hsplit]
        · rw [hc] at h
          cases h
    · cases h
  · rintro ⟨hne,hbracket,⟨gap,hgap,rfl⟩,c,r,hcontent,hc⟩
    have hid : id.isEmpty = false := by simpa using hne
    simp only [definition?,Text.after?_append,Text.cutAt_append hbracket,hid]
    cases hblank : Text.isBlank c with
    | false =>
      rw [dropWhile_gap hgap hcontent hblank,hcontent]
      rfl
    | true =>
      have hr := hc hblank
      subst hr
      subst hcontent
      have hdrop : (gap ++ [c]).dropWhile Text.isBlank = [] := by
        rw [List.dropWhile_append_of_pos hgap,List.dropWhile_cons_of_pos hblank,List.dropWhile_nil]
      simp [hdrop]

/-- A definition begins with a bracket. -/
theorem definition?_of_isIndented {l : Text} (h : IsIndented l) : definition? l = none := by
  obtain ⟨r,rfl | rfl⟩ := h <;> rfl

/-! Lines that are taken out. -/

/-- Whether each line belongs to a note; the flag tells whether the line above does. -/
def marks : Bool → List (Text × Bool) → List Bool
  | _, [] => []
  | isOpen, (l,fenced)::xs =>
    let mark := !fenced && ((definition? l).isSome || (isOpen && continues l))
    mark::marks mark xs

/-- The lines without a mark. -/
def unmarked (ms : List Bool) (xs : List (Text × Bool)) : List (Text × Bool) :=
  ((xs.zip ms).filter fun x => !x.2).map (·.1)

@[simp] theorem unmarked_cons (m : Bool) (ms : List Bool) (x : Text × Bool) (xs : List (Text × Bool)) :
    unmarked (m::ms) (x::xs) = if m then unmarked ms xs else x::unmarked ms xs := by
  cases m <;> simp [unmarked]

@[simp] theorem unmarked_nil (ms : List Bool) : unmarked ms [] = [] := by simp [unmarked]

theorem length_marks (isOpen : Bool) (xs : List (Text × Bool)) :
    (marks isOpen xs).length = xs.length := by
  induction xs generalizing isOpen with
  | nil => rfl
  | cons x xs ih => simp [marks,ih]

theorem unmarked_sublist (ms : List Bool) (xs : List (Text × Bool)) : (unmarked ms xs).Sublist xs := by
  induction xs generalizing ms with
  | nil => simp
  | cons x xs ih =>
    cases ms with
    | nil => simp [unmarked]
    | cons m ms =>
      rw [unmarked_cons]
      split
      · exact (ih ms).cons x
      · exact (ih ms).cons_cons x

/-- The lines that remain are those without a mark. -/
theorem extractFrom_snd (notes : Dictionary Text) (current : Option Text) (xs : List (Text × Bool)) :
    (extractFrom notes current xs).2 = (unmarked (marks current.isSome xs) xs).map (·.1) := by
  induction xs generalizing notes current with
  | nil => rfl
  | cons x xs ih =>
    obtain ⟨l,fenced⟩ := x
    cases fenced with
    | true =>
      rw [extractFrom,if_pos rfl,extractFrom.keep,ih]
      simp [marks]
    | false =>
      rw [extractFrom,if_neg Bool.false_ne_true]
      cases hfilter : current.filter fun _ => continues l with
      | some id =>
        obtain ⟨hcurrent,hl⟩ := Option.filter_eq_some_iff.mp hfilter
        simp [marks,hcurrent,hl,ih]
      | none =>
        have hclosed : (current.isSome && continues l) = false := by
          cases current with
          | none => rfl
          | some id => simpa using hfilter
        cases hd : definition? l with
        | none => simp [marks,hclosed,hd,extractFrom.keep,ih]
        | some note => simp [marks,hd,ih]

/-- A line of a fence has no mark. -/
theorem filter_unmarked (isOpen : Bool) (xs : List (Text × Bool)) :
    (unmarked (marks isOpen xs) xs).filter (·.2) = xs.filter (·.2) := by
  induction xs generalizing isOpen with
  | nil => simp
  | cons x xs ih =>
    obtain ⟨l,fenced⟩ := x
    cases fenced with
    | true => simp [marks,ih]
    | false =>
      rw [marks,unmarked_cons]
      split <;> simp [ih]

theorem definition?_of_mem_unmarked {isOpen : Bool} {xs : List (Text × Bool)} :
    ∀ x ∈ unmarked (marks isOpen xs) xs, x.2 = false → definition? x.1 = none := by
  induction xs generalizing isOpen with
  | nil => simp
  | cons x xs ih =>
    obtain ⟨l,fenced⟩ := x
    rw [marks,unmarked_cons]
    split
    · exact ih
    · rename_i hm
      refine List.forall_mem_cons.mpr ⟨?_,ih⟩
      rintro rfl
      simp only [Bool.not_false,Bool.true_and,Bool.or_eq_true,not_or] at hm
      simpa using hm.1

/-- The lines without a mark are fenced as they were. -/
theorem scanFrom_unmarked (isOpen : Bool) (s : Fence.State) (ls : List Text) :
    Fence.scanFrom s ((unmarked (marks isOpen (Fence.scanFrom s ls)) (Fence.scanFrom s ls)).map (·.1)) =
      unmarked (marks isOpen (Fence.scanFrom s ls)) (Fence.scanFrom s ls) := by
  induction ls generalizing isOpen s with
  | nil => simp [Fence.scanFrom]
  | cons l ls ih =>
    rw [Fence.scanFrom,marks,unmarked_cons]
    split
    · rename_i hm
      have hfenced : s.isFenced (Fence.advance s l) = false := by
        rw [Bool.and_eq_true,Bool.not_eq_true'] at hm
        exact hm.1
      obtain ⟨hs,hl⟩ := Fence.isFenced_eq_false_iff.mp hfenced
      have hsame : Fence.advance s l = s := hl.trans hs.symm
      rw [hsame]
      exact ih _ s
    · rw [List.map_cons,Fence.scanFrom,ih]

/-- The lines that remain have no notes. -/
theorem extractLines_extractLines (ls : List Text) :
    extractLines (extractLines ls).2 = ([],(extractLines ls).2) := by
  have hkept : (extractLines ls).2 = (unmarked (marks false (Fence.scan ls)) (Fence.scan ls)).map (·.1) :=
    extractFrom_snd [] none (Fence.scan ls)
  rw [hkept,extractLines,Fence.scan,Fence.scan,scanFrom_unmarked,
    extractFrom_of_no_definition definition?_of_mem_unmarked]

theorem extract_extract (t : Text) : extract (extract t).2 = ([],(extract t).2) := by
  have hagain := extract_joinLines (newline_not_mem_extractLines t)
  rw [extractLines_extractLines] at hagain
  exact hagain

/-! Which lines have a mark. -/

theorem marks_zero {isOpen : Bool} {xs : List (Text × Bool)} :
    (marks isOpen xs)[0]? = some true ↔ ∃ l, xs[0]? = some (l,false) ∧
      ((definition? l).isSome = true ∨ isOpen = true ∧ IsIndented l) := by
  cases xs with
  | nil => simp [marks]
  | cons x xs =>
    obtain ⟨l,fenced⟩ := x
    cases fenced <;> simp [marks,continues_iff]

/-- A line behind another is marked as a definition, or when it continues the note above. -/
theorem marks_succ {isOpen : Bool} {xs : List (Text × Bool)} {i : Nat} :
    (marks isOpen xs)[i+1]? = some true ↔ ∃ l, xs[i+1]? = some (l,false) ∧
      ((definition? l).isSome = true ∨ (marks isOpen xs)[i]? = some true ∧ IsIndented l) := by
  induction i generalizing isOpen xs with
  | zero =>
    cases xs with
    | nil => simp [marks]
    | cons x xs => simp [marks,marks_zero]
  | succ i ih =>
    cases xs with
    | nil => simp [marks]
    | cons x xs => simp [marks,ih]

/-- A line of notes: a definition, or an indented line that follows one with only lines of notes
between. -/
inductive Taken (xs : List (Text × Bool)) : Nat → Prop
  | definition {i : Nat} {l id content : Text} : xs[i]? = some (l,false) →
      IsDefinition l id content → Taken xs i
  | continuation {i j : Nat} {l : Text} {d : Text × Bool} {id content : Text} :
      xs[i]? = some (l,false) → IsIndented l → j < i → xs[j]? = some d →
      IsDefinition d.1 id content → (∀ k, j < k → k < i → Taken xs k) → Taken xs i

/-- The line that closes a fence defines no note. -/
theorem definition?_of_closes {c : Char} {n : Nat} {l : Text} (h : Fence.closes c n l = true) :
    definition? l = none := by
  cases hd : definition? l with
  | none => rfl
  | some note =>
    obtain ⟨-,-,⟨gap,-,rfl⟩,-⟩ := definition?_eq_some_iff.mp hd
    simp only [Fence.closes,Bool.and_eq_true,List.all_eq_true,decide_eq_true_eq] at h
    have hbracket : '[' = c := h.2 _ (Text.mem_trim (by simp) (by decide))
    have hmark : '^' = c := h.2 _ (Text.mem_trim (by simp) (by decide))
    exact absurd (hbracket.trans hmark.symm) (by decide)

/-- Only a closing line is fenced in front of one that is not. -/
theorem definition?_of_last_fenced {s : Fence.State} {ls : List Text} {j : Nat} {d l : Text}
    (hd : (Fence.scanFrom s ls)[j]? = some (d,true))
    (hl : (Fence.scanFrom s ls)[j+1]? = some (l,false)) : definition? d = none := by
  induction j generalizing s ls with
  | zero =>
    cases ls with
    | nil => cases hd
    | cons k ls =>
      cases ls with
      | nil => cases hl
      | cons k' ls =>
        simp only [Fence.scanFrom,List.getElem?_cons_zero,List.getElem?_cons_succ,Option.some.injEq,
          Prod.mk.injEq] at hd hl
        obtain ⟨rfl,hfenced⟩ := hd
        obtain ⟨hnormal,-⟩ := Fence.isFenced_eq_false_iff.mp hl.2
        rw [hnormal] at hfenced
        cases s with
        | normal => cases hfenced
        | inside c n =>
          rw [Fence.advance] at hnormal
          split at hnormal
          · rename_i hcloses
            exact definition?_of_closes hcloses
          · cases hnormal
  | succ j ih =>
    cases ls with
    | nil => cases hd
    | cons k ls => exact ih hd hl

theorem isSome_of_isDefinition {l id content : Text} (h : IsDefinition l id content) :
    (definition? l).isSome = true := by
  rw [definition?_eq_some_iff.mpr h]
  rfl

theorem marks_of_taken {ls : List Text} {i : Nat} (h : Taken (Fence.scan ls) i) :
    (marks false (Fence.scan ls))[i]? = some true := by
  induction h with
  | @definition i l id content hl hd =>
    cases i with
    | zero => exact marks_zero.mpr ⟨l,hl,.inl (isSome_of_isDefinition hd)⟩
    | succ i => exact marks_succ.mpr ⟨l,hl,.inl (isSome_of_isDefinition hd)⟩
  | @continuation i j l d id content hl hindented hj hline hd _ ih =>
    obtain ⟨i,rfl⟩ : ∃ i', i = i' + 1 := ⟨i-1,by omega⟩
    refine marks_succ.mpr ⟨l,hl,.inr ⟨?_,hindented⟩⟩
    by_cases hij : j = i
    · subst hij
      have hdefined := isSome_of_isDefinition hd
      have hfenced : d.2 = false := by
        cases hb : d.2 with
        | false => rfl
        | true =>
          rw [definition?_of_last_fenced (d:=d.1) (hb ▸ hline) hl] at hdefined
          cases hdefined
      have hline' : (Fence.scan ls)[j]? = some (d.1,false) := hfenced ▸ hline
      cases j with
      | zero => exact marks_zero.mpr ⟨d.1,hline',.inl hdefined⟩
      | succ j => exact marks_succ.mpr ⟨d.1,hline',.inl hdefined⟩
    · exact ih i (by omega) (by omega)

theorem taken_of_marks {xs : List (Text × Bool)} {i : Nat} (h : (marks false xs)[i]? = some true) :
    Taken xs i := by
  induction i with
  | zero =>
    obtain ⟨l,hl,hd | ⟨hopen,-⟩⟩ := marks_zero.mp h
    · obtain ⟨note,hnote⟩ := Option.isSome_iff_exists.mp hd
      exact .definition hl (definition?_eq_some_iff.mp hnote)
    · cases hopen
  | succ i ih =>
    obtain ⟨l,hl,hd | ⟨habove,hindented⟩⟩ := marks_succ.mp h
    · obtain ⟨note,hnote⟩ := Option.isSome_iff_exists.mp hd
      exact .definition hl (definition?_eq_some_iff.mp hnote)
    · have htaken := ih habove
      cases htaken with
      | definition hline hd =>
        exact .continuation hl hindented (Nat.lt_succ_self i) hline hd fun k hik hki => by omega
      | @continuation _ j _ _ _ _ hline hc hj hdline hd hbetween =>
        refine .continuation hl hindented (by omega) hdline hd fun k hjk hki => ?_
        by_cases hk : k = i
        · exact hk ▸ .continuation hline hc hj hdline hd hbetween
        · exact hbetween k hjk (by omega)

theorem marks_iff_taken {ls : List Text} {i : Nat} :
    (marks false (Fence.scan ls))[i]? = some true ↔ Taken (Fence.scan ls) i :=
  ⟨taken_of_marks,marks_of_taken⟩

/-! What the notes say. -/

/-- The lines that continue a note, trimmed and each behind a line feed. -/
def continuation (xs : List (Text × Bool)) : Text :=
  (xs.takeWhile fun x => !x.2 && continues x.1).flatMap fun x => '
' :: Text.trim x.1

/-- Ids and texts of the notes in the order in which they are defined. -/
def definitions : List (Text × Bool) → List (Text × Text)
  | [] => []
  | (l,fenced)::xs => match if fenced then none else definition? l with
    | some (id,content) => (id,content ++ continuation xs)::definitions xs
    | none => definitions xs

/-- The ids that are defined, one for each definition outside fences. -/
def definedIds (xs : List (Text × Bool)) : List Text :=
  xs.filterMap fun x => if x.2 then none else (definition? x.1).map (·.1)

theorem keys_definitions (xs : List (Text × Bool)) :
    Dictionary.keys (definitions xs) = definedIds xs := by
  induction xs with
  | nil => rfl
  | cons x xs ih =>
    obtain ⟨l,fenced⟩ := x
    cases fenced with
    | true => simpa [definitions,definedIds] using ih
    | false => cases hd : definition? l <;> simpa [definitions,definedIds,hd] using ih

theorem definitions_cons_of_none {l : Text} (h : definition? l = none) (fenced : Bool)
    (xs : List (Text × Bool)) : definitions ((l,fenced)::xs) = definitions xs := by
  cases fenced <;> simp [definitions,h]

theorem set_append_nil {notes : Dictionary Text} {id v : Text} (h : notes.find? id = some v) :
    notes.set id (v ++ []) = notes := by
  rw [List.append_nil,Dictionary.set_eq_self h]

/-- Notes are set one after the other. An open note grows by the lines that continue it. -/
theorem extractFrom_fst (notes : Dictionary Text) (xs : List (Text × Bool)) :
    (extractFrom notes none xs).1 = notes.merge (definitions xs) ∧
      ∀ id v, notes.find? id = some v → (extractFrom notes (some id) xs).1 =
        (notes.set id (v ++ continuation xs)).merge (definitions xs) := by
  induction xs generalizing notes with
  | nil =>
    refine ⟨rfl,fun id v hv => ?_⟩
    have hset := set_append_nil hv
    rw [continuation,List.takeWhile_nil,List.flatMap_nil,hset]
    rfl
  | cons x xs ih =>
    obtain ⟨l,fenced⟩ := x
    cases fenced with
    | true =>
      have hskip : definitions ((l,true)::xs) = definitions xs := rfl
      have hnone : continuation ((l,true)::xs) = [] := rfl
      refine ⟨(ih notes).1,fun id v hv => ?_⟩
      rw [hskip,hnone,set_append_nil hv]
      exact (ih notes).1
    | false =>
      -- a line that does not go on with a note is read as if none were open
      have hread : ∀ current : Option Text, (current.filter fun _ => continues l) = none →
          (extractFrom notes current ((l,false)::xs)).1 = notes.merge (definitions ((l,false)::xs)) := by
        intro current hcurrent
        rw [extractFrom,if_neg Bool.false_ne_true,hcurrent]
        cases hd : definition? l with
        | none =>
          rw [definitions_cons_of_none hd]
          exact (ih notes).1
        | some note =>
          have hdefined : definitions ((l,false)::xs) =
              (note.1,note.2 ++ continuation xs)::definitions xs := by
            simp [definitions,hd]
          have hopen := (ih (notes.set note.1 note.2)).2 note.1 note.2 (Dictionary.find?_set ..)
          rw [Dictionary.set_set] at hopen
          rw [hdefined,Dictionary.merge_cons]
          exact hopen
      refine ⟨hread none rfl,fun id v hv => ?_⟩
      cases hl : continues l with
      | false =>
        have hnone : continuation ((l,false)::xs) = [] := by simp [continuation,hl]
        rw [hnone,set_append_nil hv]
        exact hread (some id) (by simp [hl])
      | true =>
        have hgrow : continuation ((l,false)::xs) = '\n' :: Text.trim l ++ continuation xs := by
          simp [continuation,hl]
        have halter : notes.alter id (extend l) = notes.set id (v ++ '\n' :: Text.trim l) := by
          rw [Dictionary.alter,hv]
          rfl
        have hopen := (ih (notes.set id (v ++ '\n' :: Text.trim l))).2 id _ (Dictionary.find?_set ..)
        rw [Dictionary.set_set,List.append_assoc] at hopen
        rw [definitions_cons_of_none (definition?_of_isIndented (continues_iff.mp hl)),hgrow,extractFrom,
          if_neg Bool.false_ne_true]
        simp only [Option.filter_some,hl,if_true,halter]
        exact hopen

theorem extract_fst (t : Text) :
    (extract t).1 = Dictionary.ofEntries (definitions (Fence.scan (Text.lines t))) :=
  (extractFrom_fst [] _).1

theorem exists_definitions_append (xs : List (Text × Bool)) {l id content : Text}
    (h : definition? l = some (id,content)) (ys : List (Text × Bool)) :
    ∃ es, definitions (xs ++ (l,false)::ys) =
      es ++ (id,content ++ continuation ys)::definitions ys := by
  induction xs with
  | nil => exact ⟨[],by simp [definitions,h]⟩
  | cons x xs ih =>
    obtain ⟨es,hes⟩ := ih
    rw [List.cons_append,definitions]
    split
    · exact ⟨_::es,by rw [hes]; rfl⟩
    · exact ⟨es,hes⟩

/-- The last definition of an id counts. -/
theorem find?_definitions {xs : List (Text × Bool)} {i : Nat} {l id content : Text}
    (hl : xs[i]? = some (l,false)) (hd : IsDefinition l id content)
    (hlast : ∀ j k c, i < j → xs[j]? = some (k,false) → ¬IsDefinition k id c) :
    (Dictionary.ofEntries (definitions xs)).find? id =
      some (content ++ continuation (xs.drop (i+1))) := by
  obtain ⟨hi,hget⟩ := List.getElem?_eq_some_iff.mp hl
  have hsplit : xs = xs.take i ++ (l,false)::xs.drop (i+1) := by
    rw [← hget,List.getElem_cons_drop,List.take_append_drop]
  obtain ⟨es,hes⟩ :=
    exists_definitions_append (xs.take i) (definition?_eq_some_iff.mpr hd) (xs.drop (i+1))
  have hnot : id ∉ Dictionary.keys (definitions (xs.drop (i+1))) := by
    rw [keys_definitions]
    intro hmem
    obtain ⟨⟨k,fenced⟩,hx,hk⟩ := List.mem_filterMap.mp hmem
    obtain ⟨n,hn⟩ := List.mem_iff_getElem?.mp hx
    rw [List.getElem?_drop] at hn
    cases fenced with
    | true => cases hk
    | false =>
      obtain ⟨note,hnote,rfl⟩ := Option.map_eq_some_iff.mp hk
      exact hlast _ k note.2 (by omega) hn (definition?_eq_some_iff.mp hnote)
  rw [hsplit,hes,Dictionary.ofEntries,Dictionary.merge_append,Dictionary.merge_cons,
    Dictionary.find?_merge_of_not_mem hnot,Dictionary.find?_set,← hsplit]

/-- How the lines of a text are shared out between notes and the lines that are kept. -/
structure Extracted (xs : List (Text × Bool)) (notes : Dictionary Text) (kept : List (Text × Bool)) :
    Prop where
  /-- The lines of notes are taken out, and no others. -/
  taken : ∃ ms, ms.length = xs.length ∧ (∀ i, ms[i]? = some true ↔ Taken xs i) ∧ kept = unmarked ms xs
  sublist : kept.Sublist xs
  fenced : kept.filter (·.2) = xs.filter (·.2)
  /-- Notes stand in the order of their first definitions. -/
  ids : notes.keys = (definedIds xs).eraseDups
  /-- The text of a note is the content of its last definition and the lines that continue it. -/
  texts : ∀ i l id content, xs[i]? = some (l,false) → IsDefinition l id content →
    (∀ j k c, i < j → xs[j]? = some (k,false) → ¬IsDefinition k id c) →
    notes.find? id = some (content ++ continuation (xs.drop (i+1)))

/-- Taking out the notes shares out the lines of a text, and is done once and for all. -/
theorem extract_shares_lines (t : Text) :
    (∃ kept, Extracted (Fence.scan (Text.lines t)) (extract t).1 kept ∧
      (extract t).2 = Text.joinLines (kept.map (·.1))) ∧
    extract (extract t).2 = ([],(extract t).2) := by
  refine ⟨⟨unmarked (marks false (Fence.scan (Text.lines t))) (Fence.scan (Text.lines t)),?_,?_⟩,
    extract_extract t⟩
  · refine ⟨⟨_,length_marks _ _,fun i => marks_iff_taken,rfl⟩,unmarked_sublist _ _,
      filter_unmarked _ _,?_,fun i l id content hl hd hlast => ?_⟩
    · rw [extract_fst,Dictionary.keys_ofEntries,keys_definitions]
    · rw [extract_fst]
      exact find?_definitions hl hd hlast
  · exact congrArg Text.joinLines (extractFrom_snd [] none _)

end Footnote
end Longform
