import Mathlib.Data.List.Forall2
import Longform.Proofs.Network.Section

/-! Descriptions of items as they are shown. The lines of an item reach its markup without the blank ones,
so two paragraphs with blank lines between them become one; everything else stays as it is. -/
namespace Longform
namespace Network

/-- Lines of paragraphs: neither blank nor headings. -/
def isProse (l : Text) : Bool := !Text.allBlank l && (Text.trim l).head? != some '#'

/-- A line of a paragraph comes next, blank lines aside. -/
def resumes (ls : List Text) : Bool := (ls.dropWhile Text.allBlank).head?.any isProse

/-- Blank lines come next, and then a line of a paragraph. -/
def pauses (ls : List Text) : Bool := ls.head?.any Text.allBlank && resumes ls

/-- How often blank lines stand between two lines of paragraphs. -/
def partings : List Text → Nat
  | [] => 0
  | l::ls => partings ls + (isProse l && pauses ls).toNat

/-- The definitions of a block that have a name. -/
def namedDefinitions (source : Text) : List (Text × List Text) :=
  (definitions (sections (Text.lines source)).definitions).filter fun d => !(itemName d.1).isEmpty

def headingPart (l : Text) : List Text :=
  ((heading? (Text.trim l)).map fun h => headingMarkup h.1 h.2).toList

/-! One line after the other: it is blank, continues a paragraph or is a heading. -/

section
variable {l : Text}

theorem isProse_of_allBlank (h : Text.allBlank l = true) : isProse l = false := by simp [isProse,h]

theorem resumes_blank (h : Text.allBlank l = true) (ls : List Text) :
    resumes (l::ls) = resumes ls := by
  simp [resumes,h]

theorem resumes_visible (h : Text.allBlank l = false) (ls : List Text) :
    resumes (l::ls) = isProse l := by
  simp [resumes,h]

theorem pauses_blank (h : Text.allBlank l = true) (ls : List Text) : pauses (l::ls) = resumes ls := by
  simp [pauses,h,resumes_blank h]

theorem pauses_visible (h : Text.allBlank l = false) (ls : List Text) : pauses (l::ls) = false := by
  simp [pauses,h]

@[simp] theorem paragraphMarkup_nil : paragraphMarkup [] = [] := rfl
@[simp] theorem describeFrom_nil (p : List Text) : describeFrom p [] = paragraphMarkup p := rfl

theorem describeFrom_blank (h : Text.allBlank l = true) (p ls : List Text) :
    describeFrom p (l::ls) = paragraphMarkup p ++ describeFrom [] ls := by
  simp [describeFrom,Text.trim_eq_nil_iff.mpr h]

theorem describeFrom_prose (h : isProse l = true) (p ls : List Text) :
    describeFrom p (l::ls) = describeFrom (p ++ [Text.trim l]) ls := by
  have hne : ¬Text.trim l = [] := by
    rw [Text.trim_eq_nil_iff]
    intro hblank
    simp [isProse,hblank] at h
  simp_all [describeFrom,isProse]

theorem describeFrom_heading (hblank : Text.allBlank l = false) (h : isProse l = false)
    (p ls : List Text) :
    describeFrom p (l::ls) = paragraphMarkup p ++ (headingPart l ++ describeFrom [] ls) := by
  simp_all [describeFrom,isProse,headingPart]

end

theorem trim_untab (l : Text) : Text.trim (untab l) = Text.trim l := by
  unfold untab
  split
  -- a tab is a blank, which trimming takes off anyway
  · rename_i r
    simp [Text.trim,Text.trimStart,show Text.isBlank '\t' = true by decide]
  · rfl

theorem mem_of_mem_untab {l : Text} {c : Char} (h : c ∈ untab l) : c ∈ l := by
  unfold untab at h
  split at h
  · exact List.mem_cons_of_mem _ h
  · exact h

theorem describeFrom_map_untab (p ls : List Text) :
    describeFrom p (ls.map untab) = describeFrom p ls := by
  induction ls generalizing p with
  | nil => rfl
  | cons l ls ih => simp only [List.map_cons,describeFrom,trim_untab,ih]

theorem describe_joinLines {ls : List Text} (h : ∀ l ∈ ls, '\n' ∉ l) :
    describe (Text.joinLines ls) = Text.joinLines (describeFrom [] ls) := by
  by_cases hne : ls = []
  · subst hne
    rfl
  · rw [describe,Text.lines_joinLines hne h]

/-! Without the blank lines nothing changes as long as none of them parts two paragraphs. -/

/-- Three things can stand above the lines: no paragraph, an open one, and one with blank lines below
it, which have ended it for the lines as they are but not for the visible ones. -/
theorem describeFrom_visibleLines (ls : List Text) (h : partings ls = 0) :
    describeFrom [] (visibleLines ls) = describeFrom [] ls ∧
    (pauses ls = false → ∀ p, describeFrom p (visibleLines ls) = describeFrom p ls) ∧
    (resumes ls = false → ∀ p,
      describeFrom p (visibleLines ls) = paragraphMarkup p ++ describeFrom [] ls) := by
  induction ls with
  | nil => simp
  | cons l ls ih =>
    simp only [partings,Nat.add_eq_zero_iff] at h
    obtain ⟨hclosed,hopen,hgap⟩ := ih h.1
    by_cases hblank : Text.allBlank l = true
    · simp only [visibleLines_blank hblank,pauses_blank hblank,resumes_blank hblank,
        describeFrom_blank hblank]
      exact ⟨by simpa using hclosed,hgap,by simpa using hgap⟩
    · rw [Bool.not_eq_true] at hblank
      by_cases hprose : isProse l = true
      · have hrest : pauses ls = false := by simpa [hprose] using h.2
        simp [visibleLines_visible hblank,describeFrom_prose hprose,hopen hrest,
          resumes_visible hblank,hprose]
      · rw [Bool.not_eq_true] at hprose
        simp [visibleLines_visible hblank,describeFrom_heading hblank hprose,hclosed]

/-! A parting costs the markup of an end and of a beginning of a paragraph, less the space between its
lines. -/

/-- The length of lines that are joined, with one more character each. -/
def width : List Text → Nat
  | [] => 0
  | l::p => (Text.escapeContent l).length + 1 + width p

theorem width_append (p q : List Text) : width (p ++ q) = width p + width q := by
  induction p with
  | nil => simp [width]
  | cons l p ih =>
    rw [List.cons_append,width,width,ih]
    omega

theorem length_join {p : List Text} (h : p ≠ []) :
    (Text.escapeContent (Text.join [' '] p)).length + 1 = width p := by
  induction p with
  | nil => exact absurd rfl h
  | cons l p ih =>
    cases p with
    | nil => simp [Text.join,width]
    | cons k p =>
      have hrest := ih (by simp)
      have hspace : Text.escapeContentChar ' ' = [' '] := by decide
      rw [width,← hrest]
      simp [Text.join,Text.escapeContent,hspace]
      omega

def paragraphFrame (opened : Bool) : Nat := if opened then 7 else 0

theorem length_paragraphMarkup (p : List Text) :
    (Text.below (paragraphMarkup p)).length = width p + paragraphFrame (!p.isEmpty) := by
  by_cases hp : p = []
  · subst hp
    rfl
  · have hjoin := length_join hp
    simp [paragraphMarkup,paragraphFrame,hp,Text.below]
    omega

/-- The length of a description without the text of the paragraph at hand. -/
def frame (opened : Bool) : List Text → Nat
  | [] => paragraphFrame opened
  | l::ls =>
    if isProse l then width [Text.trim l] + frame true ls
    else paragraphFrame opened +
      ((if Text.allBlank l then 0 else (Text.below (headingPart l)).length) + frame false ls)

theorem length_describeFrom (p ls : List Text) :
    (Text.below (describeFrom p ls)).length = width p + frame (!p.isEmpty) ls := by
  induction ls generalizing p with
  | nil => exact length_paragraphMarkup p
  | cons l ls ih =>
    by_cases hblank : Text.allBlank l = true
    · have hprose := isProse_of_allBlank hblank
      simp [describeFrom_blank hblank,Text.below_append,length_paragraphMarkup,ih,frame,hblank,hprose,
        width,Nat.add_assoc]
    · rw [Bool.not_eq_true] at hblank
      by_cases hprose : isProse l = true
      · have hnonempty : (p ++ [Text.trim l]).isEmpty = false := by simp
        rw [describeFrom_prose hprose,ih,hnonempty,width_append]
        simp [frame,hprose,Nat.add_assoc]
      · rw [Bool.not_eq_true] at hprose
        simp [describeFrom_heading hblank hprose,Text.below_append,length_paragraphMarkup,ih,frame,
          hblank,hprose,width,Nat.add_assoc]

/-- In the same three states: below a paragraph that blank lines ended, the next one counts as a parting. -/
theorem frame_visibleLines (ls : List Text) :
    frame false ls = frame false (visibleLines ls) + 7 * partings ls ∧
    frame true ls = frame true (visibleLines ls) + 7 * (partings ls + (pauses ls).toNat) ∧
    7 + frame false ls =
      frame true (visibleLines ls) + 7 * (partings ls + (resumes ls).toNat) := by
  induction ls with
  | nil => simp [visibleLines,frame,paragraphFrame,partings,resumes,pauses]
  | cons l ls ih =>
    obtain ⟨hclosed,hopen,hgap⟩ := ih
    by_cases hblank : Text.allBlank l = true
    · have hprose := isProse_of_allBlank hblank
      simp [visibleLines_blank hblank,resumes_blank hblank,pauses_blank hblank,frame,partings,
        paragraphFrame,hblank,hprose]
      omega
    · rw [Bool.not_eq_true] at hblank
      by_cases hprose : isProse l = true
      · simp [visibleLines_visible hblank,resumes_visible hblank,pauses_visible hblank,frame,partings,
          hprose]
        omega
      · rw [Bool.not_eq_true] at hprose
        simp [visibleLines_visible hblank,resumes_visible hblank,pauses_visible hblank,frame,partings,
          paragraphFrame,hprose,hblank]
        omega

theorem length_joinLines (ls : List Text) :
    (Text.joinLines ls).length = (Text.below ls).length - 1 := by
  rw [Text.joinLines_eq_tail,List.length_tail]

/-- Blank lines may be left out exactly when none of them parts two paragraphs. -/
theorem describe_visibleLines_iff {ls : List Text} (h : ∀ l ∈ ls, '\n' ∉ l) :
    describe (Text.joinLines (visibleLines ls)) = describe (Text.joinLines ls) ↔
      partings ls = 0 := by
  have hvisible : ∀ l ∈ visibleLines ls, '\n' ∉ l := fun l hl => h l (List.mem_of_mem_filter hl)
  rw [describe_joinLines h,describe_joinLines hvisible]
  constructor
  · intro heq
    have hlength := congrArg List.length heq
    have hframe := (frame_visibleLines ls).1
    simp only [length_joinLines,length_describeFrom,List.isEmpty_nil,Bool.not_true] at hlength
    omega
  · intro hnone
    rw [(describeFrom_visibleLines ls hnone).1]

theorem rendered_keptLines {ls : List Text} (h : ∀ l ∈ ls, '\n' ∉ l) (name : Text) :
    (⟨name,Text.joinLines (keptLines ls)⟩ : Item).rendered =
      describe (Text.joinLines (visibleLines ls)) := by
  have hvisible : ∀ l ∈ visibleLines ls, '\n' ∉ l := fun l hl => h l (List.mem_of_mem_filter hl)
  have hkept : ∀ l ∈ keptLines ls, '\n' ∉ l := by
    intro l hl
    obtain ⟨k,hk,rfl⟩ := List.mem_map.mp hl
    exact fun hm => hvisible k hk (mem_of_mem_untab hm)
  rw [Item.rendered,describe_joinLines hkept,describe_joinLines hvisible]
  exact congrArg Text.joinLines (describeFrom_map_untab [] (visibleLines ls))

theorem mem_of_mem_definitions {ls : List Text} {d : Text × List Text} (hd : d ∈ definitions ls) :
    ∀ l ∈ d.2, l ∈ ls := by
  induction ls with
  | nil => simp [definitions] at hd
  | cons k ls ih =>
    intro l hl
    rw [definitions] at hd
    split at hd
    · rcases List.mem_cons.mp hd with rfl | hd
      · exact List.mem_cons_of_mem _ (List.takeWhile_subset _ hl)
      · exact List.mem_cons_of_mem _ (ih hd l hl)
    · exact List.mem_cons_of_mem _ (ih hd l hl)

theorem cutSection_fst_subset (ls : List Text) : (cutSection ls).1 ⊆ ls := List.takeWhile_subset _

theorem cutSection_snd_subset (ls : List Text) : (cutSection ls).2 ⊆ ls :=
  ((List.tail_sublist _).trans (List.dropWhile_sublist _)).subset

theorem sections_definitions_subset (ls : List Text) : (sections ls).definitions ⊆ ls := by
  unfold sections
  split
  · apply List.Subset.trans (cutSection_fst_subset _)
    exact List.Subset.trans (cutSection_snd_subset _) (cutSection_snd_subset _)
  · exact cutSection_fst_subset _

theorem forall₂_items {R : Item → Text × List Text → Prop} {ds : List (Text × List Text)}
    (h : ∀ d ∈ ds, R ⟨itemName d.1,Text.joinLines (keptLines d.2)⟩ d) :
    List.Forall₂ R (ds.filterMap fun d => itemOf? (itemName d.1) (keptLines d.2))
      (ds.filter fun d => !(itemName d.1).isEmpty) := by
  induction ds with
  | nil => exact .nil
  | cons d ds ih =>
    rw [List.forall_mem_cons] at h
    by_cases hname : (itemName d.1).isEmpty = true
    · have hnone : itemOf? (itemName d.1) (keptLines d.2) = none := by simp [itemOf?,hname]
      rw [List.filter_cons_of_neg (by simp [hname])]
      simp only [List.filterMap_cons,hnone]
      exact ih h.2
    · have hitem : itemOf? (itemName d.1) (keptLines d.2) =
          some ⟨itemName d.1,Text.joinLines (keptLines d.2)⟩ := by simp [itemOf?,hname]
      rw [List.filter_cons_of_pos (by simp [hname])]
      simp only [List.filterMap_cons,hitem]
      exact .cons h.1 (ih h.2)

/-- Every named definition is an item. It is shown without its blank lines, which is what its lines as
they are would show exactly when no blank lines stand between two lines of paragraphs. -/
theorem rendered_eq_describe_iff {source : Text} {b : Block} (h : Block.read source = .ok b) :
    List.Forall₂ (fun x d => x.name = itemName d.1 ∧
      x.rendered = describe (Text.joinLines (visibleLines d.2)) ∧
      (x.rendered = describe (Text.joinLines d.2) ↔ partings d.2 = 0))
      b.items (namedDefinitions source) := by
  have hb : b.items = itemsOf (sections (Text.lines source)).definitions := by
    rw [read_eq] at h
    simp only at h
    split at h
    · cases h
    · cases h
      rfl
  rw [hb]
  apply forall₂_items
  intro d hd
  have hlines : ∀ l ∈ d.2, '\n' ∉ l := fun l hl =>
    Text.newline_not_mem_lines (sections_definitions_subset _ (mem_of_mem_definitions hd l hl))
  rw [rendered_keptLines hlines]
  exact ⟨rfl,rfl,describe_visibleLines_iff hlines⟩

/-- Blank lines below a heading change nothing, blank lines between paragraphs do. -/
theorem rendered_eq_describe_iff_two :
    let source := "A\n    # One\n\n    two\nB\n    three\n\n    four".toList
    let x : Item := ⟨"A".toList,"    # One\n    two".toList⟩
    let y : Item := ⟨"B".toList,"    three\n    four".toList⟩
    Block.read source = .ok ⟨[],[x,y],[]⟩ ∧
      x.rendered = describe "    # One\n\n    two".toList ∧
      y.rendered ≠ describe "    three\n\n    four".toList := by
  intro source x y
  have hread : Block.read source = .ok ⟨[],[x,y],[]⟩ := by decide
  have hnamed : namedDefinitions source =
      [("A".toList,["    # One".toList,[],"    two".toList]),
        ("B".toList,["    three".toList,[],"    four".toList])] := by decide
  have hshown := rendered_eq_describe_iff hread
  rw [hnamed] at hshown
  simp only [List.forall₂_cons] at hshown
  obtain ⟨⟨-,-,hx⟩,⟨-,-,hy⟩,-⟩ := hshown
  exact ⟨hread,hx.mpr (by decide),mt hy.mp (by decide)⟩

/-- Two paragraphs are shown as one. -/
theorem rendered_ne_describe : ¬∀ (source : Text) (b : Block), Block.read source = .ok b →
    List.Forall₂ (fun x d => x.rendered = describe (Text.joinLines d.2))
      b.items (namedDefinitions source) := by
  intro h
  have hread : Block.read "A\n    one\n\n    two".toList =
      .ok ⟨[],[⟨"A".toList,"    one\n    two".toList⟩],[]⟩ := by decide
  have hitem := h _ _ hread
  have hnamed : namedDefinitions "A\n    one\n\n    two".toList =
      [("A".toList,["    one".toList,[],"    two".toList])] := by decide
  rw [hnamed,List.forall₂_cons] at hitem
  revert hitem
  decide

end Network
end Longform
