import Longform.Proofs.Dictionary
import Longform.Proofs.Network.Section
import Longform.Proofs.Text.Search
import Longform.Proofs.Text.Word

/-! Blocks as they are printed: settings, items and connections on lines of their own, with delimiters
between the sections. Reading a printed block gives it back; a block that defines and connects nothing is
refused. -/
namespace Longform
namespace Network

def delimiter : Text := "---".toList

def settingLine (entry : Text × Text) : Text := entry.1 ++ ": ".toList ++ entry.2

/-- The lines of an item's content; an empty content has none. -/
def Item.lines (x : Item) : List Text := if x.content.isEmpty then [] else Text.lines x.content

def Item.printLines (x : Item) : List Text := x.name::x.lines

def Block.printLines (b : Block) : List Text :=
  delimiter::(b.settings.map settingLine ++
    delimiter::(b.items.flatMap Item.printLines ++ delimiter::b.connections))

def Block.print (b : Block) : Text := Text.joinLines b.printLines

/-- Characters of keys. -/
def isKey (c : Char) : Bool := Text.isWord c || c = '-'

/-- What fills a line and is trimmed. -/
structure FillsLine (t : Text) : Prop where
  trimmed : Text.trim t = t
  nonempty : t ≠ []
  oneLine : '\n' ∉ t

structure IsSetting (entry : Text × Text) : Prop where
  nonempty : entry.1 ≠ []
  key : ∀ c ∈ entry.1, isKey c = true
  value : FillsLine entry.2

/-- A line of a description, which a space indents. -/
structure IsContentLine (l : Text) : Prop where
  indented : l.head? = some ' '
  visible : Text.allBlank l = false
  no_delimiter : Text.trim l ≠ delimiter

structure Item.Printable (x : Item) : Prop where
  name : FillsLine x.name
  no_colon : ':' ∉ x.name
  no_delimiter : x.name ≠ delimiter
  content : ∀ l ∈ x.lines, IsContentLine l

structure Block.Printable (b : Block) : Prop where
  settings : ∀ entry ∈ b.settings, IsSetting entry
  distinct : (Dictionary.keys b.settings).Nodup
  items : ∀ x ∈ b.items, x.Printable
  connections : ∀ c ∈ b.connections, FillsLine c

namespace FillsLine
variable {t : Text}

theorem exists_cons (h : FillsLine t) : ∃ c r, t = c::r ∧ Text.isBlank c = false := by
  cases t with
  | nil => exact absurd rfl h.nonempty
  | cons c r => exact ⟨c,r,rfl,Text.isBlank_of_trim_eq_cons h.trimmed⟩

theorem begins (h : FillsLine t) : beginsItem t = true := by
  obtain ⟨c,r,rfl,hc⟩ := h.exists_cons
  simp [beginsItem,hc]

theorem visible (h : FillsLine t) : Text.allBlank t = false := by
  obtain ⟨c,r,rfl,hc⟩ := h.exists_cons
  simp [Text.allBlank,hc]

end FillsLine

theorem setting?_append {key : Text} (h : ∀ c ∈ key, isKey c = true) (r : Text) :
    setting? (key ++ ':' :: r) =
      if key.isEmpty || (Text.trim r).isEmpty then none else some (key,Text.trim r) := by
  have hstop : ∀ c ∈ (':' :: r).head?, isKey c = false := by
    simp only [List.head?_cons,Option.mem_some_iff,forall_eq']
    decide
  have hcut := Text.takeWhile_append_stop h hstop
  unfold isKey at hcut
  simp only [setting?,hcut]

namespace IsSetting
variable {entry : Text × Text}

theorem not_isKey_of_isBlank {c : Char} (h : Text.isBlank c = true) : isKey c = false := by
  have hne : c ≠ '-' := by
    rintro rfl
    revert h
    decide
  simp [isKey,Text.isWord_of_isBlank h,hne]

theorem trim_settingLine (h : IsSetting entry) :
    Text.trim (settingLine entry) = entry.1 ++ ':' :: Text.trimEnd (' ' :: entry.2) := by
  -- the colon is what trimming stops at on either side
  have hstart : Text.trimStart entry.1 = entry.1 := by
    cases hkey : entry.1 with
    | nil => rfl
    | cons c r =>
      have hc : Text.isBlank c = false := by
        by_contra hblank
        have hnot := not_isKey_of_isBlank (by simpa using hblank)
        simp [h.key c (by simp [hkey])] at hnot
      simp [Text.trimStart,hc]
  have hline : settingLine entry = entry.1 ++ ':' :: ' ' :: entry.2 := by simp [settingLine]
  rw [hline,Text.trim_append_cons (by decide),hstart]

/-- A printed setting is read as it is. -/
theorem setting?_settingLine (h : IsSetting entry) :
    setting? (Text.trim (settingLine entry)) = some entry := by
  have hvalue : Text.trim (Text.trimEnd (' ' :: entry.2)) = entry.2 := by
    have hspace := Text.trim_append_append (b:=[' ']) (e:=[]) (List.all_eq_true.mp rfl) (by simp) entry.2
    rw [Text.trim_trimEnd]
    simpa [h.value.trimmed] using hspace
  rw [trim_settingLine h,setting?_append h.key,hvalue]
  simp [h.nonempty,h.value.nonempty]

theorem not_delimiter (h : IsSetting entry) : isDelimiter (settingLine entry) = false := by
  have hcolon : ':' ∈ Text.trim (settingLine entry) := by simp [trim_settingLine h]
  rw [isDelimiter,decide_eq_false_iff_not]
  intro heq
  rw [heq] at hcolon
  revert hcolon
  decide

theorem oneLine (h : IsSetting entry) : '\n' ∉ settingLine entry := by
  have hkey : '\n' ∉ entry.1 := by
    intro hm
    have hnot := not_isKey_of_isBlank (c := '\n') (by decide)
    simp [h.key _ hm] at hnot
  simp [settingLine,hkey,h.value.oneLine]

end IsSetting

namespace IsContentLine
variable {l : Text}

theorem exists_cons (h : IsContentLine l) : ∃ r, l = ' ' :: r := by
  have hhead := h.indented
  cases l with
  | nil => simp at hhead
  | cons c r => exact ⟨r,by simpa using hhead⟩

theorem not_begins (h : IsContentLine l) : beginsItem l = false := by
  obtain ⟨r,rfl⟩ := h.exists_cons
  simp only [beginsItem,List.head?_cons,Option.any_some]
  decide

theorem untab_eq (h : IsContentLine l) : untab l = l := by
  obtain ⟨r,rfl⟩ := h.exists_cons
  rfl

theorem not_delimiter (h : IsContentLine l) : isDelimiter l = false := by
  simpa [isDelimiter,delimiter] using h.no_delimiter

end IsContentLine

theorem keptLines_eq {ls : List Text} (h : ∀ l ∈ ls, IsContentLine l) : keptLines ls = ls := by
  induction ls with
  | nil => rfl
  | cons l ls ih =>
    rw [List.forall_mem_cons] at h
    rw [keptLines_visible h.1.visible,h.1.untab_eq,ih h.2]

namespace Item.Printable
variable {x : Item}

theorem itemName_eq (h : x.Printable) : itemName x.name = x.name := by
  have hcut : dropColon x.name = x.name := by
    simp [dropColon,Text.cutAt_of_not_mem h.no_colon]
  rw [itemName,hcut,h.name.trimmed]

theorem joinLines_lines (x : Item) : Text.joinLines x.lines = x.content := by
  unfold Item.lines
  split
  · rename_i hempty
    simp [Text.joinLines,Text.join,List.isEmpty_iff.mp hempty]
  · exact Text.joinLines_lines x.content

theorem itemOf?_eq (h : x.Printable) : itemOf? (itemName x.name) (keptLines x.lines) = some x := by
  simp [itemOf?,h.itemName_eq,keptLines_eq h.content,joinLines_lines,h.name.nonempty]

theorem not_delimiter (h : x.Printable) : ∀ l ∈ x.printLines, isDelimiter l = false := by
  intro l hl
  rcases List.mem_cons.mp hl with rfl | hl
  · simpa [isDelimiter,h.name.trimmed,delimiter] using h.no_delimiter
  · exact (h.content l hl).not_delimiter

theorem oneLine (h : x.Printable) : ∀ l ∈ x.printLines, '\n' ∉ l := by
  intro l hl
  rcases List.mem_cons.mp hl with rfl | hl
  · exact h.name.oneLine
  · unfold Item.lines at hl
    split at hl
    · simp at hl
    · exact Text.newline_not_mem_lines hl

end Item.Printable

/-- The content of an item ends where the next item begins. -/
theorem itemsOf_printLines {xs : List Item} (h : ∀ x ∈ xs, x.Printable) :
    itemsOf (xs.flatMap Item.printLines) = xs ∧
      (xs.flatMap Item.printLines).takeWhile (fun l => !beginsItem l) = [] := by
  induction xs with
  | nil => simp [itemsOf,definitions]
  | cons x xs ih =>
    rw [List.forall_mem_cons] at h
    obtain ⟨hitems,hnext⟩ := ih h.2
    have hcontent : ∀ l ∈ x.lines, beginsItem l = false := fun l hl => (h.1.content l hl).not_begins
    have hlines : (x.lines ++ xs.flatMap Item.printLines).takeWhile (fun l => !beginsItem l) =
        x.lines := by
      rw [List.takeWhile_append_of_pos (by simpa using hcontent),hnext,List.append_nil]
    rw [List.flatMap_cons,Item.printLines,List.cons_append]
    constructor
    · rw [itemsOf_cons_of_begins h.1.name.begins,hlines,h.1.itemOf?_eq,
        itemsOf_append_of_not_begins hcontent,hitems]
      rfl
    · simp [h.1.name.begins]

theorem settings_settingLine {es : List (Text × Text)} (h : ∀ entry ∈ es, IsSetting entry) :
    (es.map settingLine).filterMap (fun l => setting? (Text.trim l)) = es := by
  induction es with
  | nil => rfl
  | cons entry es ih =>
    rw [List.forall_mem_cons] at h
    simp [h.1.setting?_settingLine,ih h.2]

theorem connections_eq {cs : List Text} (h : ∀ c ∈ cs, FillsLine c) :
    (visibleLines cs).map Text.trim = cs := by
  induction cs with
  | nil => rfl
  | cons c cs ih =>
    rw [List.forall_mem_cons] at h
    simp [visibleLines_visible h.1.visible,h.1.trimmed,ih h.2]

namespace Block.Printable
variable {b : Block}

theorem sections_printLines (h : b.Printable) : sections b.printLines =
    ⟨b.settings.map settingLine,b.items.flatMap Item.printLines,b.connections⟩ := by
  have hdelimiter : isDelimiter delimiter = true := by decide
  have hfirst : firstSection b.printLines = .start := by
    have hvisible : Text.allBlank delimiter = false := by decide
    simp [firstSection,printLines,hvisible,hdelimiter]
  have hsettings : ∀ l ∈ b.settings.map settingLine, isDelimiter l = false := by
    intro l hl
    obtain ⟨entry,he,rfl⟩ := List.mem_map.mp hl
    exact (h.settings entry he).not_delimiter
  have hitems : ∀ l ∈ b.items.flatMap Item.printLines, isDelimiter l = false := by
    intro l hl
    obtain ⟨x,hx,hl⟩ := List.mem_flatMap.mp hl
    exact (h.items x hx).not_delimiter l hl
  rw [sections,if_pos hfirst,printLines]
  simp only [cutSection_cons hdelimiter,cutSection_append hsettings hdelimiter,
    Sections.ofDefinitions,cutSection_append hitems hdelimiter]

theorem blockOf_sections (h : b.Printable) : blockOf (sections b.printLines) = b := by
  simp only [blockOf,h.sections_printLines,settings_settingLine h.settings,
    (itemsOf_printLines h.items).1,connections_eq h.connections,
    Dictionary.ofEntries_of_nodup h.distinct]

theorem lines_print (h : b.Printable) : Text.lines b.print = b.printLines := by
  apply Text.lines_joinLines (by simp [printLines])
  have hdelimiter : '\n' ∉ delimiter := by decide
  simp only [printLines,List.forall_mem_cons,List.forall_mem_append]
  refine ⟨hdelimiter,?_,hdelimiter,?_,hdelimiter,fun l hl => (h.connections l hl).oneLine⟩
  · intro l hl
    obtain ⟨entry,he,rfl⟩ := List.mem_map.mp hl
    exact (h.settings entry he).oneLine
  · intro l hl
    obtain ⟨x,hx,hl⟩ := List.mem_flatMap.mp hl
    exact (h.items x hx).oneLine l hl

end Block.Printable

/-- What is printed is read back, and refused exactly when it defines and connects nothing. -/
theorem read_print {b : Block} (h : b.Printable) : Block.read b.print =
    if b.items = [] ∧ b.connections = [] then .error .networkEmpty else .ok b := by
  rw [read_eq,h.lines_print,h.blockOf_sections]
  simp

/-- Among the connections a line that looks like a delimiter is one of them. -/
theorem read_print_delimiter :
    let b : Block := ⟨[("layout".toList,"a: b".toList)],
      [⟨"A".toList,[]⟩,⟨"B".toList," # One\n  two".toList⟩],["---".toList]⟩
    b.Printable ∧ Block.read b.print = .ok b := by
  intro b
  have hfills : ∀ t ∈ ["a: b".toList,"A".toList,"B".toList,"---".toList], FillsLine t := by
    simp only [List.forall_mem_cons]
    refine ⟨⟨?_,?_,?_⟩,⟨?_,?_,?_⟩,⟨?_,?_,?_⟩,⟨?_,?_,?_⟩,List.forall_mem_nil _⟩ <;> decide
  have hcontent : ∀ l ∈ [" # One".toList,"  two".toList], IsContentLine l := by
    simp only [List.forall_mem_cons]
    refine ⟨⟨?_,?_,?_⟩,⟨?_,?_,?_⟩,List.forall_mem_nil _⟩ <;> decide
  have hb : b.Printable := by
    simp only [List.forall_mem_cons] at hfills
    obtain ⟨hvalue,hfirst,hsecond,hline,-⟩ := hfills
    refine ⟨?_,by decide,?_,by simpa [b] using hline⟩
    · simp only [b,List.forall_mem_singleton]
      exact ⟨by decide,List.all_eq_true.mp rfl,hvalue⟩
    · simp only [b,List.forall_mem_cons]
      exact ⟨⟨hfirst,by decide,by decide,List.forall_mem_nil _⟩,
        ⟨hsecond,by decide,by decide,hcontent⟩,List.forall_mem_nil _⟩
  exact ⟨hb,read_print hb⟩

end Network
end Longform
