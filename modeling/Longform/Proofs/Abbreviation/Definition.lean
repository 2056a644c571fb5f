import Mathlib.Data.List.Forall2
import Longform.Markdown.Abbreviation
import Longform.Proofs.Dictionary
import Longform.Proofs.Text.Lines
import Longform.Proofs.Text.Search
import Longform.Proofs.Text.Trim

/-! Paragraphs of definitions. A definition line is spelled `*[term]: expansion`; a paragraph defines
terms when it is nothing but text and every line of it that shows anything is a definition line. -/
namespace Longform
namespace Abbreviation

/-- The spelling of a definition line. Any blanks may part the term from its expansion; the term may hold
line feeds, the expansion may not. -/
structure DefinitionLine (line term gap expansion : Text) : Prop where
  line_eq : line = "*[".toList ++ (term ++ ']' :: ':' :: (gap ++ expansion))
  term_ne_nil : term ≠ []
  not_mem_term : ']' ∉ term
  gap_ne_nil : gap ≠ []
  blank_gap : ∀ c ∈ gap, Text.isBlank c = true
  expansion_ne_nil : expansion ≠ []
  expansion_head : ∀ c ∈ expansion.head?, Text.isBlank c = false
  one_line : '\n' ∉ expansion

/-- A line gives a term and its expansion, blanks around them apart. -/
def Defines (line : Text) (entry : Text × Text) : Prop :=
  ∃ gap, DefinitionLine (Text.trim line) entry.1 gap entry.2

/-- The lines that inline content shows between its breaks. -/
def contentLines (cs : List Token) : List Text :=
  (cs.splitOnP Token.isBreak).map fun line => line.flatMap Token.content

/-- The lines that are not blank. -/
def visible (ls : List Text) : List Text := ls.filter fun l => !Text.allBlank l

/-- Inline content is text and breaks only. -/
def Plain (cs : List Token) : Prop := ∀ t ∈ cs, t.kind = "text" ∨ t.isBreak = true

/-- Inline content that defines terms: there are visible lines, and each gives one of the entries. -/
structure Definitional (inlineToken : Token) (entries : List (Text × Text)) : Prop where
  plain : Plain (inlineToken.children.getD [])
  defines : List.Forall₂ Defines (visible (contentLines (inlineToken.children.getD []))) entries
  ne_nil : entries ≠ []

section Line

variable {line term gap expansion : Text} {found d : Dictionary Text} {ls : List Text}

theorem spelled_append (term gap expansion : Text) :
    "*[".toList ++ (term ++ ']' :: ':' :: (gap ++ expansion)) =
      ("*[".toList ++ (term ++ ']' :: ':' :: gap)) ++ expansion := by
  rw [List.append_assoc,List.append_assoc]
  rfl

/-- Of a trimmed line the reader takes the whole expansion: what begins behind the blanks ends where the
line ends, and that is no blank. -/
theorem exists_definitionLine (hline : Text.trim line = line)
    (h : definition? line = some (term,expansion)) : ∃ gap, DefinitionLine line term gap expansion := by
  unfold definition? at h
  split at h
  · cases h
  rename_i r hr
  split at h
  · rename_i term' s hcut
    obtain ⟨hr',hmem⟩ := Text.eq_append_of_cutAt hcut
    obtain ⟨gap,u,rfl,-,hdrop,hgap,hhead⟩ := Text.exists_span Text.isBlank s
    rw [hdrop] at h
    dsimp only at h
    split at h
    · cases h
    rename_i hnot
    simp only [Bool.or_eq_true,decide_eq_true_eq,not_or,List.isEmpty_iff] at hnot
    obtain ⟨⟨hterm,hlen⟩,hexpansion⟩ := hnot
    obtain ⟨e,hone,hentry⟩ := Option.map_eq_some_iff.mp h
    have hspelled : line = "*[".toList ++ (term' ++ ']' :: ':' :: (gap ++ u)) := by
      rw [← hr',Text.eq_append_of_after? hr]
    have hlast : ∀ c ∈ u.getLast?, Text.isBlank c = false := fun _ =>
      Text.isBlank_of_mem_getLast? (hline.trans (hspelled.trans (spelled_append ..)))
    obtain ⟨hone',he⟩ := Text.of_oneLine?_eq_some hone
    obtain rfl : u = e := by
      refine he.resolve_right fun hfeed => ?_
      exact absurd (hlast '\n' (hfeed ▸ List.getLast?_concat)) (by decide)
    rw [Text.trim_eq_self hhead hlast] at hentry
    cases hentry
    refine ⟨gap,⟨hspelled,hterm,hmem,?_,hgap,hexpansion,hhead,hone'⟩⟩
    rintro rfl
    exact hlen rfl
  · cases h

theorem DefinitionLine.definition?_eq (h : DefinitionLine line term gap expansion)
    (hline : Text.trim line = line) : definition? line = some (term,expansion) := by
  have hlast : ∀ c ∈ expansion.getLast?, Text.isBlank c = false := fun _ =>
    Text.isBlank_of_mem_getLast? (hline.trans (h.line_eq.trans (spelled_append ..)))
  have hdrop : (gap ++ expansion).dropWhile Text.isBlank = expansion :=
    (Text.takeWhile_append_stop h.blank_gap h.expansion_head).2
  have hempty : (term.isEmpty || decide (expansion.length = (gap ++ expansion).length) ||
      expansion.isEmpty) = false := by
    simp [h.term_ne_nil,h.expansion_ne_nil,h.gap_ne_nil]
  unfold definition?
  rw [h.line_eq,Text.after?_append]
  dsimp only
  rw [Text.cutAt_append h.not_mem_term]
  simp only [hdrop,hempty,Text.oneLine?_of_not_mem h.one_line,Text.trim_eq_self h.expansion_head hlast,
    Option.map_some]
  rfl

theorem definition?_trim_eq_some_iff {entry : Text × Text} :
    definition? (Text.trim line) = some entry ↔ Defines line entry := by
  refine ⟨exists_definitionLine (Text.trim_trim line),?_⟩
  rintro ⟨gap,h⟩
  exact h.definition?_eq (Text.trim_trim line)

@[simp] theorem visible_nil : visible [] = [] := rfl

theorem visible_cons_of_blank {l : Text} (h : Text.allBlank l = true) : visible (l::ls) = visible ls := by
  simp [visible,h]

theorem visible_cons_of_not_blank {l : Text} (h : Text.allBlank l = false) :
    visible (l::ls) = l::visible ls := by
  simp [visible,h]

/-- Lines give definitions when every visible one is a definition line. -/
theorem definitionsFrom_eq_some_iff : definitionsFrom found ls = some d ↔
    ∃ entries, List.Forall₂ Defines (visible ls) entries ∧ d = found.merge entries := by
  induction ls generalizing found with
  | nil => simp [definitionsFrom,eq_comm]
  | cons l ls ih =>
    rw [definitionsFrom]
    split
    · rename_i hblank
      rw [visible_cons_of_blank (Text.trim_eq_nil_iff.mp (List.isEmpty_iff.mp hblank)),ih]
    · rename_i hblank
      have hvisible : Text.allBlank l = false := by
        rw [List.isEmpty_iff,Text.trim_eq_nil_iff] at hblank
        simpa using hblank
      rw [visible_cons_of_not_blank hvisible]
      split
      · rename_i hnone
        constructor
        · intro h
          cases h
        · rintro ⟨_,hl,-⟩
          cases hl with
          | cons hentry _ =>
            rw [← definition?_trim_eq_some_iff,hnone] at hentry
            cases hentry
      · rename_i term expansion hsome
        rw [ih]
        constructor
        · rintro ⟨entries,hentries,rfl⟩
          exact ⟨(term,expansion)::entries,.cons (definition?_trim_eq_some_iff.mp hsome) hentries,rfl⟩
        · rintro ⟨_,hl,rfl⟩
          cases hl with
          | cons hentry hentries =>
            rw [← definition?_trim_eq_some_iff,hsome] at hentry
            cases hentry
            exact ⟨_,hentries,rfl⟩

theorem definitions?_eq_some_iff : definitions? ls = some d ↔
    ∃ entries, List.Forall₂ Defines (visible ls) entries ∧ entries ≠ [] ∧
      d = Dictionary.ofEntries entries := by
  rw [definitions?,Option.filter_eq_some_iff,definitionsFrom_eq_some_iff]
  constructor
  · rintro ⟨⟨entries,hentries,rfl⟩,hne⟩
    refine ⟨entries,hentries,?_,rfl⟩
    rintro rfl
    cases hne
  · rintro ⟨entries,hentries,hne,rfl⟩
    refine ⟨⟨entries,hentries,rfl⟩,?_⟩
    rw [Bool.not_eq_true',List.isEmpty_eq_false_iff]
    exact mt Dictionary.ofEntries_eq_nil_iff.mp hne

end Line

section Content

variable {cs : List Token} {t : Token} {buffer : Text} {ls : List Text}

theorem contentLines_cons_of_isBreak (h : t.isBreak = true) :
    contentLines (t::cs) = [] :: contentLines cs := by
  rw [contentLines,List.splitOnP_cons_eq_if_modifyHead,if_pos h]
  rfl

theorem contentLines_cons (h : t.isBreak = false) :
    contentLines (t::cs) = (contentLines cs).modifyHead (t.content ++ ·) := by
  rw [contentLines,contentLines,List.splitOnP_cons_eq_if_modifyHead,if_neg (by simp [h])]
  cases cs.splitOnP Token.isBreak <;> simp

theorem isBreak_of_text (h : t.kind = "text") : t.isBreak = false := by
  simp [Token.isBreak,h]

theorem modifyHead_nil_append (ls : List Text) : ls.modifyHead ([] ++ ·) = ls := by
  cases ls <;> rfl

/-- The reader's lines are those between the breaks, but for a last one that is empty. -/
theorem visible_of_linesOf (h : linesOf buffer cs = some ls) :
    Plain cs ∧ visible ls = visible ((contentLines cs).modifyHead (buffer ++ ·)) := by
  induction cs generalizing buffer ls with
  | nil =>
    refine ⟨fun _ ht => absurd ht List.not_mem_nil,?_⟩
    cases h
    cases buffer <;> simp [contentLines,visible,Text.allBlank]
  | cons t cs ih =>
    rw [linesOf] at h
    split at h
    · rename_i hbreak
      obtain ⟨ls',hls,rfl⟩ := Option.map_eq_some_iff.mp h
      obtain ⟨hplain,hvisible⟩ := ih hls
      refine ⟨List.forall_mem_cons.mpr ⟨.inr hbreak,hplain⟩,?_⟩
      rw [modifyHead_nil_append] at hvisible
      rw [contentLines_cons_of_isBreak hbreak,List.modifyHead_cons,List.append_nil]
      rw [visible,List.filter_cons,visible,List.filter_cons]
      exact ite_congr rfl (fun _ => congrArg _ hvisible) fun _ => hvisible
    · split at h
      · rename_i htext
        obtain ⟨hplain,hvisible⟩ := ih h
        refine ⟨List.forall_mem_cons.mpr ⟨.inl htext,hplain⟩,?_⟩
        rw [hvisible,contentLines_cons (isBreak_of_text htext),List.modifyHead_modifyHead]
        simp only [Function.comp_def,List.append_assoc]
      · cases h

theorem exists_linesOf (h : Plain cs) (buffer : Text) : ∃ ls, linesOf buffer cs = some ls := by
  induction cs generalizing buffer with
  | nil => exact ⟨_,rfl⟩
  | cons t cs ih =>
    obtain ⟨ht,hcs⟩ := List.forall_mem_cons.mp h
    rw [linesOf]
    split
    · obtain ⟨ls,hls⟩ := ih hcs []
      exact ⟨buffer::ls,by rw [hls,Option.map_some]⟩
    · rename_i hbreak
      rw [if_pos (ht.resolve_right hbreak)]
      exact ih hcs (buffer ++ t.content)

theorem paragraphDefinitions?_eq_some_iff {d : Dictionary Text} :
    paragraphDefinitions? t = some d ↔
      ∃ entries, Definitional t entries ∧ d = Dictionary.ofEntries entries := by
  rw [paragraphDefinitions?,Option.bind_eq_some_iff]
  constructor
  · rintro ⟨ls,hls,hd⟩
    obtain ⟨entries,hentries,hne,rfl⟩ := definitions?_eq_some_iff.mp hd
    obtain ⟨hplain,hvisible⟩ := visible_of_linesOf hls
    rw [modifyHead_nil_append] at hvisible
    exact ⟨entries,⟨hplain,hvisible ▸ hentries,hne⟩,rfl⟩
  · rintro ⟨entries,h,rfl⟩
    obtain ⟨ls,hls⟩ := exists_linesOf h.plain []
    obtain ⟨-,hvisible⟩ := visible_of_linesOf hls
    rw [modifyHead_nil_append] at hvisible
    exact ⟨ls,hls,definitions?_eq_some_iff.mpr ⟨entries,hvisible ▸ h.defines,h.ne_nil,rfl⟩⟩

theorem paragraphDefinitions?_eq_none_iff :
    paragraphDefinitions? t = none ↔ ∀ entries, ¬Definitional t entries := by
  rw [Option.eq_none_iff_forall_ne_some]
  constructor
  · exact fun h entries hdef => h _ (paragraphDefinitions?_eq_some_iff.mpr ⟨entries,hdef,rfl⟩)
  · intro h d hd
    obtain ⟨entries,hdef,-⟩ := paragraphDefinitions?_eq_some_iff.mp hd
    exact h entries hdef

end Content

end Abbreviation
end Longform
