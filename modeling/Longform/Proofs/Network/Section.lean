import Longform.Network.Block
import Longform.Proofs.Text.Lines
import Longform.Proofs.Text.Trim

/-! The sections of a block, and what is read of each. Delimiters part the lines; settings are set one
after the other, a definition is a line that is not indented with the lines below it, and every
connection line that is not blank counts. -/
namespace Longform
namespace Network

/-- The lines of a block by sections. -/
structure Sections where
  settings : List Text
  definitions : List Text
  connections : List Text

/-- The lines in front of the first delimiter, and those behind it. -/
def cutSection (ls : List Text) : List Text × List Text :=
  (ls.takeWhile fun l => !isDelimiter l,(ls.dropWhile fun l => !isDelimiter l).tail)

def Sections.ofDefinitions (settings ls : List Text) : Sections :=
  ⟨settings,(cutSection ls).1,(cutSection ls).2⟩

def sections (ls : List Text) : Sections :=
  if firstSection ls = .start then
    let rest := cutSection (cutSection ls).2
    .ofDefinitions rest.1 rest.2
  else .ofDefinitions [] ls

/-- A line that begins a definition: it is not indented. -/
def beginsItem (l : Text) : Bool := l.head?.any fun c => !Text.isBlank c

/-- The lines of definitions: a line that begins one, and the lines below it up to the next. -/
def definitions : List Text → List (Text × List Text)
  | [] => []
  | l::ls =>
    if beginsItem l then (l,ls.takeWhile fun k => !beginsItem k)::definitions ls else definitions ls

/-- The line without a tab in front. -/
def untab : Text → Text
  | '\t' :: r => r
  | l => l

def visibleLines (ls : List Text) : List Text := ls.filter fun l => !Text.allBlank l

/-- The lines of a description that are kept. -/
def keptLines (ls : List Text) : List Text := (visibleLines ls).map untab

/-- An item, when it has a name. -/
def itemOf? (name : Text) (ls : List Text) : Option Item :=
  if name.isEmpty then none else some ⟨name,Text.joinLines ls⟩

def itemName (line : Text) : Text := Text.trim (dropColon line)

/-- The items of a section of definitions. -/
def itemsOf (ls : List Text) : List Item :=
  (definitions ls).filterMap fun d => itemOf? (itemName d.1) (keptLines d.2)

def blockOf (s : Sections) : Block where
  settings := Dictionary.ofEntries (s.settings.filterMap fun l => setting? (Text.trim l))
  items := itemsOf s.definitions
  connections := (visibleLines s.connections).map Text.trim

@[simp] theorem visibleLines_nil : visibleLines [] = [] := rfl
@[simp] theorem keptLines_nil : keptLines [] = [] := rfl

theorem visibleLines_blank {l : Text} (h : Text.allBlank l = true) (ls : List Text) :
    visibleLines (l::ls) = visibleLines ls := by
  simp [visibleLines,h]

theorem visibleLines_visible {l : Text} (h : Text.allBlank l = false) (ls : List Text) :
    visibleLines (l::ls) = l::visibleLines ls := by
  simp [visibleLines,h]

theorem keptLines_blank {l : Text} (h : Text.allBlank l = true) (ls : List Text) :
    keptLines (l::ls) = keptLines ls := by
  simp [keptLines,visibleLines_blank h]

theorem keptLines_visible {l : Text} (h : Text.allBlank l = false) (ls : List Text) :
    keptLines (l::ls) = untab l::keptLines ls := by
  simp [keptLines,visibleLines_visible h]

theorem itemsOf_cons_of_begins {l : Text} (h : beginsItem l = true) (ls : List Text) :
    itemsOf (l::ls) = (itemOf? (itemName l) (keptLines (ls.takeWhile fun k => !beginsItem k))).toList ++
      itemsOf ls := by
  cases hitem : itemOf? (itemName l) (keptLines (ls.takeWhile fun k => !beginsItem k)) <;>
    simp [itemsOf,definitions,h,hitem]

theorem itemsOf_cons_of_not_begins {l : Text} (h : beginsItem l = false) (ls : List Text) :
    itemsOf (l::ls) = itemsOf ls := by
  simp [itemsOf,definitions,h]

theorem itemsOf_append_of_not_begins {ls : List Text} (h : ∀ l ∈ ls, beginsItem l = false)
    (ks : List Text) : itemsOf (ls ++ ks) = itemsOf ks := by
  induction ls with
  | nil => rfl
  | cons l ls ih =>
    rw [List.forall_mem_cons] at h
    rw [List.cons_append,itemsOf_cons_of_not_begins h.1,ih h.2]

theorem cutSection_append {ls : List Text} (h : ∀ l ∈ ls, isDelimiter l = false) {d : Text}
    (hd : isDelimiter d = true) (rest : List Text) : cutSection (ls ++ d::rest) = (ls,rest) := by
  have hpos : ∀ l ∈ ls, (!isDelimiter l) = true := by simpa using h
  simp [cutSection,List.takeWhile_append_of_pos hpos,List.dropWhile_append_of_pos hpos,hd]

theorem cutSection_cons {d : Text} (hd : isDelimiter d = true) (rest : List Text) :
    cutSection (d::rest) = ([],rest) := by
  simp [cutSection,hd]

namespace Block

def setAll (b : Block) (es : List (Text × Text)) : Block := { b with settings := b.settings.merge es }
def addItems (b : Block) (xs : List Item) : Block := { b with items := b.items ++ xs }
def connect (b : Block) (cs : List Text) : Block := { b with connections := b.connections ++ cs }

@[simp] theorem setAll_nil (b : Block) : b.setAll [] = b := rfl
@[simp] theorem addItems_addItems (b : Block) (xs ys : List Item) :
    (b.addItems xs).addItems ys = b.addItems (xs ++ ys) := by simp [addItems]
@[simp] theorem connect_nil (b : Block) : b.connect [] = b := by simp [connect]

end Block

/-! One section after the other. -/

namespace Reader
variable {r : Reader} {ls : List Text}

theorem save_eq (r : Reader) : r.save = r.block.addItems (itemOf? r.name r.lines).toList := by
  unfold save itemOf?
  split <;> simp [Block.addItems]

theorem step_of_not_delimiter {l : Text} (h : isDelimiter l = false) (r : Reader) :
    r.step l = r.readLine l := by
  simp [step,h]

theorem step_delimiter {l : Text} (h : isDelimiter l = true) {s : Section} (hs : r.part.next? = some s) :
    r.step l = { r with part := s } := by
  simp [step,h,hs]

theorem foldl_start (hr : r.part = .start) (hls : ∀ l ∈ ls, isDelimiter l = false) :
    ls.foldl step r = r := by
  induction ls with
  | nil => rfl
  | cons l ls ih =>
    rw [List.forall_mem_cons] at hls
    simp [step_of_not_delimiter hls.1,readLine,hr,ih hls.2]

theorem foldl_settings (hr : r.part = .settings) (hls : ∀ l ∈ ls, isDelimiter l = false) :
    ls.foldl step r =
      { r with block := r.block.setAll (ls.filterMap fun l => setting? (Text.trim l)) } := by
  induction ls generalizing r with
  | nil => simp
  | cons l ls ih =>
    rw [List.forall_mem_cons] at hls
    rw [List.foldl_cons,step_of_not_delimiter hls.1]
    cases h : setting? (Text.trim l) with
    | none => simp [readLine,hr,h,ih hr hls.2]
    | some entry =>
      have hset : r.readLine l = { r with block := r.block.setAll [entry] } := by
        simp [readLine,hr,h,Block.setAll,Dictionary.merge]
      rw [hset,ih (by simpa using hr) hls.2]
      simp [h,Block.setAll,Dictionary.merge]

theorem readDefinition_begins {l : Text} (h : beginsItem l = true) (r : Reader) :
    r.readDefinition l = { r with block := r.save, name := itemName l, lines := [] } := by
  cases l with
  | nil => simp [beginsItem] at h
  | cons c l => simp_all [beginsItem,readDefinition,itemName]

theorem readDefinition_blank {l : Text} (h : Text.allBlank l = true) (r : Reader) :
    r.readDefinition l = r := by
  cases l with
  | nil => rfl
  | cons c l =>
    have hc : Text.isBlank c = true := by
      simp only [Text.allBlank,List.all_cons,Bool.and_eq_true] at h
      exact h.1
    simp [readDefinition,hc,h]

theorem readDefinition_indented {l : Text} (h : beginsItem l = false) (hl : Text.allBlank l = false)
    (r : Reader) : r.readDefinition l = { r with lines := r.lines ++ [untab l] } := by
  cases l with
  | nil => simp [Text.allBlank] at hl
  | cons c l =>
    have hc : Text.isBlank c = true := by simpa [beginsItem] using h
    by_cases htab : c = '\t'
    · subst htab
      simp [readDefinition,hc,hl,untab]
    · simp [readDefinition,hc,hl,untab,htab]

/-- The open item grows by the lines above the next one, which saves it. -/
theorem foldl_definitions (hr : r.part = .definitions) (hls : ∀ l ∈ ls, isDelimiter l = false) :
    (ls.foldl step r).part = .definitions ∧ (ls.foldl step r).save = r.block.addItems
      ((itemOf? r.name (r.lines ++ keptLines (ls.takeWhile fun l => !beginsItem l))).toList ++
        itemsOf ls) := by
  induction ls generalizing r with
  | nil => simp [hr,save_eq,itemsOf,definitions]
  | cons l ls ih =>
    rw [List.forall_mem_cons] at hls
    have hread : r.step l = r.readDefinition l := by simp [step_of_not_delimiter hls.1,readLine,hr]
    rw [List.foldl_cons,hread]
    by_cases hbegins : beginsItem l = true
    · have hrest := ih (r := { r with block := r.save, name := itemName l, lines := [] }) hr hls.2
      rw [readDefinition_begins hbegins,itemsOf_cons_of_begins hbegins]
      simpa [hbegins,save_eq] using hrest
    · rw [Bool.not_eq_true] at hbegins
      rw [itemsOf_cons_of_not_begins hbegins]
      by_cases hblank : Text.allBlank l = true
      · simpa [readDefinition_blank hblank,hbegins,keptLines_blank hblank] using ih hr hls.2
      · rw [Bool.not_eq_true] at hblank
        have hrest := ih (r := { r with lines := r.lines ++ [untab l] }) hr hls.2
        rw [readDefinition_indented hbegins hblank]
        simpa [hbegins,keptLines_visible hblank] using hrest

theorem foldl_connections (hr : r.part = .connections) : (ls.foldl step r).save =
    r.save.connect ((visibleLines ls).map Text.trim) := by
  induction ls generalizing r with
  | nil => simp
  | cons l ls ih =>
    have hread : r.step l = r.readLine l := by simp [step,hr,Section.next?]
    rw [List.foldl_cons,hread]
    by_cases hl : Text.allBlank l = true
    · simp [readLine,hr,hl,visibleLines_blank hl,ih hr]
    · have hconnect : r.readLine l = { r with block := r.block.connect [Text.trim l] } := by
        simp [readLine,hr,hl,Block.connect]
      rw [Bool.not_eq_true] at hl
      rw [hconnect,ih (by simpa using hr),visibleLines_visible hl]
      simp [save_eq,Block.connect,Block.addItems]

/-- A delimiter moves the reader on; without one there is nothing left for the next section. -/
theorem save_cutSection {s : Section} (hr : ((cutSection ls).1.foldl step r).part.next? = some s) :
    (ls.foldl step r).save =
      ((cutSection ls).2.foldl step { (cutSection ls).1.foldl step r with part := s }).save := by
  have hsplit := List.takeWhile_append_dropWhile (p := fun l => !isDelimiter l) (l := ls)
  have hhead := List.head?_dropWhile_not (fun l => !isDelimiter l) ls
  simp only [cutSection] at hr ⊢
  cases hrest : ls.dropWhile fun l => !isDelimiter l with
  | nil =>
    rw [hrest,List.append_nil] at hsplit
    rw [hsplit]
    rfl
  | cons d rest =>
    rw [hrest] at hsplit hhead
    have hd : isDelimiter d = true := by simpa using hhead
    conv => lhs; rw [← hsplit]
    rw [List.foldl_append,List.foldl_cons,step_delimiter hd hr,List.tail_cons]

end Reader

theorem not_delimiter_of_mem_cutSection (ls : List Text) :
    ∀ l ∈ (cutSection ls).1, isDelimiter l = false := by
  intro l hl
  simpa using List.all_eq_true.mp List.all_takeWhile l hl

/-- A reader at the definitions reads them and the connections behind them. -/
theorem save_definitions {r : Reader} (hr : r.part = .definitions) (hname : r.name = [])
    (ls : List Text) : (ls.foldl Reader.step r).save =
      (r.block.addItems (itemsOf (cutSection ls).1)).connect
        ((visibleLines (cutSection ls).2).map Text.trim) := by
  have hitems := Reader.foldl_definitions hr (not_delimiter_of_mem_cutSection ls)
  have hnext : ((cutSection ls).1.foldl Reader.step r).part.next? = some .connections := by
    simp [hitems.1,Section.next?]
  rw [Reader.save_cutSection hnext,Reader.foldl_connections rfl]
  have hsave : ∀ q : Reader, Reader.save { q with part := .connections } = q.save := fun _ => rfl
  rw [hsave,hitems.2]
  simp [hname,itemOf?]

/-- What the reader saves of a block. -/
theorem save_foldl_step (ls : List Text) :
    (ls.foldl Reader.step ⟨firstSection ls,⟨[],[],[]⟩,[],[]⟩).save = blockOf (sections ls) := by
  by_cases hfirst : firstSection ls = .start
  · have hstart := Reader.foldl_start (r := ⟨.start,⟨[],[],[]⟩,[],[]⟩) rfl
      (not_delimiter_of_mem_cutSection ls)
    rw [hfirst,Reader.save_cutSection (s := .settings) (by rw [hstart]; rfl),hstart]
    have hset := Reader.foldl_settings (r := ⟨.settings,⟨[],[],[]⟩,[],[]⟩) rfl
      (not_delimiter_of_mem_cutSection (cutSection ls).2)
    rw [Reader.save_cutSection (s := .definitions) (by rw [hset]; rfl),hset]
    rw [save_definitions rfl rfl]
    simp [sections,hfirst,blockOf,Sections.ofDefinitions,Block.setAll,Block.addItems,Block.connect,
      Dictionary.ofEntries]
  · have hfirst' : firstSection ls = .definitions := by
      unfold firstSection at hfirst ⊢
      split
      · split <;> simp_all
      · rfl
    rw [hfirst',save_definitions rfl rfl]
    simp [sections,hfirst,blockOf,Sections.ofDefinitions,Block.addItems,Block.connect,
      Dictionary.ofEntries,Dictionary.merge]

/-- A block is read section by section; it has to define or connect something. -/
theorem read_eq (source : Text) : Block.read source =
    let b := blockOf (sections (Text.lines source))
    if b.items.isEmpty && b.connections.isEmpty then .error .networkEmpty else .ok b := by
  simp only [Block.read,save_foldl_step]

end Network
end Longform
