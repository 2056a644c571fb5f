import Longform.Proofs.Html.Kept

/-! Trees that are built in order of reading are sound: every operation keeps the open elements and
the finished nodes so. Only one script or style can be open at a time, and it takes nothing but text. -/
namespace Longform.Html

open Builder

/-! Texts. -/

section Texts
variable {around : List Text} {kind : TextKind} {t : Text}

theorem squeeze_squeeze (t : Text) : squeeze (squeeze t) = squeeze t := by
  cases hall : t.all isPlainBlank with
  | true =>
    unfold squeeze
    rw [if_pos hall]
    split <;> rfl
  | false =>
    have hsame : squeeze t = t := if_neg (by simp [hall])
    rw [hsame,hsame]

theorem squeeze_ne_nil (h : t ≠ []) : squeeze t ≠ [] := by
  unfold squeeze
  split
  · split <;> simp
  · exact h

theorem isContent_blank {c : Char} (hc : c = '\n' ∨ c = ' ') : IsContent kind [c] := by
  have hend : '>' ∉ [c] := by rcases hc with rfl | rfl <;> decide
  cases kind with
  | shown => trivial
  | side => trivial
  | comment => rcases hc with rfl | rfl <;> rfl
  | rawData => rcases hc with rfl | rfl <;> rfl
  | instruction => exact hend
  | declaration => exact hend
  | doctype => exact hend

theorem IsContent.squeeze (h : IsContent kind t) : IsContent kind (squeeze t) := by
  unfold Builder.squeeze
  split
  · split
    · exact isContent_blank (.inl rfl)
    · exact isContent_blank (.inr rfl)
  · exact h

/-- A text is sound when it is finished. -/
theorem sound_finished (hkind : kind ≠ .side) (hcontent : kind ≠ .declaration → IsContent kind t)
    (hne : kind.isPlain = true → t ≠ []) : Sound around (finished around kind t) := by
  have hinside : kind ≠ .declaration →
      IsContent kind (if around.any keepsBlanks then t else squeeze t) := fun hk => by
    split
    · exact hcontent hk
    · exact (hcontent hk).squeeze
  have hnonempty : kind.isPlain = true → (if around.any keepsBlanks then t else squeeze t) ≠ [] :=
    fun hk => by
      split
      · exact hne hk
      · exact squeeze_ne_nil (hne hk)
  have hsqueezed : around.any keepsBlanks = true ∨
      squeeze (if around.any keepsBlanks then t else squeeze t) =
        if around.any keepsBlanks then t else squeeze t := by
    cases hany : around.any keepsBlanks with
    | true => exact .inl rfl
    | false => exact .inr (squeeze_squeeze t)
  unfold finished
  by_cases hside : kind = .shown ∧ around.any isSide = true
  · obtain ⟨rfl,hany⟩ := hside
    rw [if_pos (by simp [hany])]
    exact ⟨fun _ => trivial,fun _ => hnonempty rfl,fun _ => ⟨fun _ => hany,fun _ => rfl⟩,hsqueezed⟩
  · rw [if_neg (by simpa using hside)]
    refine ⟨hinside,hnonempty,fun hplain => ?_,hsqueezed⟩
    have hshown : kind = .shown := by
      cases kind <;> first | rfl | exact absurd rfl hkind | cases hplain
    subst hshown
    exact ⟨fun h => (nomatch h),fun h => absurd ⟨rfl,h⟩ hside⟩

end Texts

/-! Open elements. -/

/-- An open element inside elements of some names. -/
structure SoundFrame (around : List Text) (f : Frame) : Prop where
  name : IsElementName f.name
  attrs : IsKept f.name f.attrs
  nonvoid : isVoid f.name = false
  literal : isLiteralName f.name = true → f.children = [] ∨ ∃ t, f.children = [.text .side t]
  children : ∀ n ∈ f.children, Sound (f.name::around) n

def SoundFrames : List Frame → Prop
  | [] => True
  | f::fs => SoundFrame (fs.map (·.name)) f ∧ SoundFrames fs

structure SoundBuilder (b : Builder) : Prop where
  frames : SoundFrames b.opened
  roots : ∀ n ∈ b.roots, Sound [] n
  pending : b.pending ≠ some []
  closed : ∀ name ∈ b.closed, isVoid name = true

/-- No script or style is open, or the one whose content is read: it is the innermost element, and
empty so far. -/
def Fits (b : Builder) : Option Text → Prop
  | none => ∀ name ∈ b.names, isLiteralName name = false
  | some name => isLiteralName name = true ∧ ∃ attrs fs, b.opened = ⟨name,attrs,[]⟩::fs ∧
      ∀ f ∈ fs, isLiteralName f.name = false

theorem SoundFrame.sound {around : List Text} {f : Frame} (h : SoundFrame around f) :
    Sound around (.element f.name f.attrs f.children.reverse) := by
  refine ⟨h.name,h.attrs,fun hv => ?_,fun hl => ?_,?_⟩
  · rw [h.nonvoid] at hv
    cases hv
  · rcases h.literal hl with hnone | ⟨t,ht⟩
    · exact .inl (by rw [hnone]; rfl)
    · exact .inr ⟨t,by rw [ht]; rfl⟩
  · exact soundAll_iff.mpr fun n hn => h.children n (List.mem_reverse.mp hn)

section Operations
variable {b : Builder} {n : Node} {name t : Text} {attrs : Dictionary Text}

theorem soundBuilder_empty : SoundBuilder Builder.empty :=
  ⟨trivial,by simp [Builder.empty],by simp [Builder.empty],by simp [Builder.empty]⟩

/-- A node is added where no script or style is open, or is the text of the one that is. -/
theorem SoundBuilder.addNode (h : SoundBuilder b) (hn : Sound b.names n)
    (hliteral : ∀ f ∈ b.opened.head?, isLiteralName f.name = true →
      f.children = [] ∧ ∃ t, n = .text .side t) : SoundBuilder (b.addNode n) := by
  obtain ⟨opened,roots,pending,closed⟩ := b
  cases opened with
  | nil => exact ⟨trivial,List.forall_mem_cons.mpr ⟨hn,h.roots⟩,h.pending,h.closed⟩
  | cons f fs =>
    obtain ⟨hf,hfs⟩ := h.frames
    refine ⟨⟨⟨hf.name,hf.attrs,hf.nonvoid,fun hl => ?_,?_⟩,hfs⟩,h.roots,h.pending,h.closed⟩
    · obtain ⟨hnone,t,rfl⟩ := hliteral f rfl hl
      exact .inr ⟨t,by simp [hnone]⟩
    · exact List.forall_mem_cons.mpr ⟨hn,hf.children⟩

theorem SoundBuilder.addNode_of_fits (h : SoundBuilder b) (hn : Sound b.names n)
    (hfits : Fits b none) : SoundBuilder (b.addNode n) ∧ Fits (b.addNode n) none := by
  refine ⟨h.addNode hn fun f hf hl => ?_,?_⟩
  · have hmem : f.name ∈ b.names := List.mem_map_of_mem (f:=(·.name)) (List.mem_of_mem_head? hf)
    rw [hfits _ hmem] at hl
    cases hl
  · rw [Fits,names_addNode]
    exact hfits

theorem SoundBuilder.clear (h : SoundBuilder b) : SoundBuilder b.clear :=
  ⟨h.frames,h.roots,by simp,h.closed⟩

theorem SoundBuilder.write (h : SoundBuilder b) (ht : t ≠ []) : SoundBuilder (b.write t) :=
  ⟨h.frames,h.roots,by simp [Builder.write,ht],h.closed⟩

theorem Fits.write {literal : Option Text} (h : Fits b literal) : Fits (b.write t) literal := by
  cases literal <;> exact h

theorem isSide_of_isLiteralName (h : isLiteralName name = true) : isSide name = true := by
  rcases eq_of_isLiteralName h with rfl | rfl <;> decide

/-- Ending a text keeps all as it has to be; also inside a script or style. -/
theorem SoundBuilder.flush (h : SoundBuilder b) {literal : Option Text} (hfits : Fits b literal) :
    SoundBuilder (b.flush .shown) := by
  cases hp : b.pending with
  | none => rwa [flush_none hp]
  | some t =>
    have hne : t ≠ [] := by
      rintro rfl
      exact h.pending hp
    have hn : Sound b.clear.names (finished b.names .shown t) :=
      sound_finished (by decide) (fun _ => trivial) fun _ => hne
    rw [flush_some hp]
    cases literal with
    | none => exact (h.clear.addNode_of_fits hn hfits).1
    | some name =>
      obtain ⟨hl,attrs,fs,hopened,-⟩ := hfits
      refine h.clear.addNode hn fun f hf _ => ?_
      have hhead : b.opened.head? = some f := hf
      rw [hopened] at hhead
      cases hhead
      refine ⟨rfl,if b.names.any keepsBlanks then t else squeeze t,?_⟩
      have hany : b.names.any isSide = true := by
        rw [Builder.names,hopened]
        simp [isSide_of_isLiteralName hl]
      rw [finished,if_pos (by simp [hany])]

theorem names_pop : b.pop.names = b.names.tail := by
  unfold pop
  split
  · rename_i hopened
    simp [Builder.names,hopened]
  · rename_i f fs hopened
    rw [names_addNode]
    simp [Builder.names,hopened]

/-- The innermost element may be closed when no script or style is open around it. -/
theorem SoundBuilder.pop (h : SoundBuilder b) (htail : ∀ name ∈ b.names.tail, isLiteralName name = false) :
    SoundBuilder b.pop ∧ Fits b.pop none := by
  refine ⟨?_,by rw [Fits,names_pop]; exact htail⟩
  unfold Builder.pop
  split
  · exact h
  · rename_i f fs hopened
    have hframes := h.frames
    rw [hopened] at hframes
    have htail' : ∀ name ∈ fs.map (·.name), isLiteralName name = false := by
      rw [Builder.names,hopened] at htail
      exact htail
    have hrest : SoundBuilder { b with opened := fs } := ⟨hframes.2,h.roots,h.pending,h.closed⟩
    exact (hrest.addNode_of_fits hframes.1.sound htail').1

theorem SoundBuilder.popTo (h : SoundBuilder b) (hfits : Fits b none) (name : Text) (fuel : Nat) :
    SoundBuilder (popTo name fuel b) ∧ Fits (popTo name fuel b) none := by
  induction fuel generalizing b with
  | zero => exact ⟨h,hfits⟩
  | succ fuel ih =>
    rw [Builder.popTo]
    have hpop := h.pop fun n hn => hfits n (List.mem_of_mem_tail hn)
    split
    · exact ⟨h,hfits⟩
    · split
      · exact hpop
      · exact ih hpop.1 hpop.2

theorem Fits.flush (h : Fits b none) : Fits (b.flush .shown) none := by
  rw [Fits,names_flush]
  exact h

theorem SoundBuilder.closeAlways (h : SoundBuilder b) (hfits : Fits b none) (name : Text) :
    SoundBuilder (b.closeAlways name) ∧ Fits (b.closeAlways name) none := by
  unfold Builder.closeAlways
  simp only
  split
  · exact (h.flush hfits).popTo hfits.flush name _
  · exact ⟨h.flush hfits,hfits.flush⟩

/-- The script or style whose content was read is closed. -/
theorem SoundBuilder.closeAlways_literal (h : SoundBuilder b) (hfits : Fits b (some name)) :
    SoundBuilder (b.closeAlways name) ∧ Fits (b.closeAlways name) none := by
  have hflush := h.flush hfits
  obtain ⟨hl,attrs,fs,hopened,hrest⟩ := hfits
  have hnames : (b.flush .shown).names = name::fs.map (·.name) := by
    rw [names_flush,Builder.names,hopened]
    rfl
  obtain ⟨f,gs,hcons,hname⟩ : ∃ f gs, (b.flush .shown).opened = f::gs ∧ f.name = name := by
    rw [Builder.names] at hnames
    obtain ⟨f,gs,hcons,hf,-⟩ := List.map_eq_cons_iff.mp hnames
    exact ⟨f,gs,hcons,hf⟩
  have hclose : b.closeAlways name = (b.flush .shown).pop := by
    unfold Builder.closeAlways
    simp only [hcons,List.any_cons,hname,decide_true,Bool.true_or,if_true,List.length_cons,
      Builder.popTo]
  rw [hclose]
  refine hflush.pop ?_
  rw [hnames]
  exact List.forall_mem_map.mpr hrest

theorem SoundBuilder.close (h : SoundBuilder b) {literal : Option Text} (hfits : Fits b literal)
    (hname : ∀ l ∈ literal, l = name) : SoundBuilder (b.close name) ∧ Fits (b.close name) none := by
  unfold Builder.close
  cases literal with
  | none =>
    split
    · have hclosed : ∀ n ∈ b.closed.erase name, isVoid n = true := fun n hn =>
        h.closed n (List.mem_of_mem_erase hn)
      exact ⟨⟨h.frames,h.roots,h.pending,hclosed⟩,hfits⟩
    · exact h.closeAlways hfits name
  | some l =>
    obtain rfl := hname l rfl
    have hnot : Text.isOneOf l b.closed = false := by
      cases hmem : Text.isOneOf l b.closed with
      | false => rfl
      | true =>
        have hvoid := h.closed l (Text.isOneOf_iff.mp hmem)
        rw [isVoid_of_isLiteralName hfits.1] at hvoid
        cases hvoid
    rw [hnot,if_neg Bool.false_ne_true]
    exact h.closeAlways_literal hfits

theorem SoundBuilder.mark (h : SoundBuilder b) (hfits : Fits b none) {kind : TextKind}
    (hkind : kind.isPlain = false) (hcontent : kind ≠ .declaration → IsContent kind t) :
    SoundBuilder (b.mark kind t) ∧ Fits (b.mark kind t) none := by
  have hmark : b.mark kind t = (b.flush .shown).addNode (finished b.names kind t) := by
    rw [mark_eq,addAll_append,← flush_shown]
    rfl
  have hside : kind ≠ .side := by
    rintro rfl
    cases hkind
  have hn : Sound (b.flush .shown).names (finished b.names kind t) := by
    rw [names_flush]
    exact sound_finished hside hcontent fun hp => by simp [hkind] at hp
  rw [hmark]
  exact (h.flush hfits).addNode_of_fits hn hfits.flush

/-- An element that is closed as soon as it is opened. -/
theorem SoundBuilder.openAndClose (h : SoundBuilder b) (hfits : Fits b none)
    (hname : IsElementName name) (hattrs : IsKept name (kept name attrs)) :
    SoundBuilder (b.openAndClose name attrs) ∧ Fits (b.openAndClose name attrs) none := by
  have hpending : (b.push name attrs).pending = none := pending_flush
  have hempty : (b.push name attrs).flush .shown = (b.push name attrs).clear.addAll [] :=
    (flush_none hpending).trans (clear_of_pending hpending).symm
  have helement : Sound (b.flush .shown).names (.element name (kept name attrs) []) :=
    ⟨hname,hattrs,fun _ => rfl,fun _ => .inl rfl,trivial⟩
  rw [Builder.openAndClose,closeAlways_push hempty]
  exact (h.flush hfits).addNode_of_fits helement hfits.flush

theorem SoundBuilder.push (h : SoundBuilder b) (hfits : Fits b none) (hname : IsElementName name)
    (hattrs : IsKept name (kept name attrs)) (hvoid : isVoid name = false) :
    SoundBuilder (b.push name attrs) ∧
      Fits (b.push name attrs) (if isLiteralName name then some name else none) := by
  have hflush := h.flush hfits
  have hnames := hfits.flush
  have hframe : SoundFrame ((b.flush .shown).opened.map (·.name)) ⟨name,kept name attrs,[]⟩ :=
    ⟨hname,hattrs,hvoid,fun _ => .inl rfl,by simp⟩
  refine ⟨⟨⟨hframe,hflush.frames⟩,hflush.roots,hflush.pending,hflush.closed⟩,?_⟩
  split
  · rename_i hl
    exact ⟨hl,_,_,rfl,fun f hf => hnames f.name (List.mem_map_of_mem (f:=(·.name)) hf)⟩
  · rename_i hl
    exact List.forall_mem_cons.mpr ⟨Bool.eq_false_iff.mpr hl,hnames⟩

theorem SoundBuilder.openTag (h : SoundBuilder b) (hfits : Fits b none) (hname : IsElementName name)
    (hattrs : IsKept name (kept name attrs)) : SoundBuilder (b.openTag name attrs) ∧
      Fits (b.openTag name attrs) (if isLiteralName name then some name else none) := by
  cases hvoid : isVoid name with
  | false =>
    have hopen : b.openTag name attrs = b.push name attrs := if_neg (Bool.eq_false_iff.mp hvoid)
    rw [hopen]
    exact h.push hfits hname hattrs hvoid
  | true =>
    have hopen : b.openTag name attrs =
        { b.openAndClose name attrs with closed := (b.openAndClose name attrs).closed ++ [name] } :=
      if_pos hvoid
    have hliteral : isLiteralName name = false := by
      cases hl : isLiteralName name with
      | false => rfl
      | true =>
        rw [isVoid_of_isLiteralName hl] at hvoid
        cases hvoid
    obtain ⟨hsound,hplain⟩ := h.openAndClose hfits hname hattrs
    rw [hopen,hliteral]
    refine ⟨⟨hsound.frames,hsound.roots,hsound.pending,?_⟩,hplain⟩
    intro n hn
    rcases List.mem_append.mp hn with hn | hn
    · exact hsound.closed n hn
    · rw [List.mem_singleton.mp hn]
      exact hvoid

theorem SoundBuilder.pops (h : SoundBuilder b)
    (htail : ∀ name ∈ b.names.tail, isLiteralName name = false) (fs : List Frame) :
    SoundBuilder (fs.foldl (fun b _ => b.pop) b) := by
  induction fs generalizing b with
  | nil => exact h
  | cons f fs ih =>
    obtain ⟨hsound,hfits⟩ := h.pop htail
    exact ih hsound fun n hn => hfits n (List.mem_of_mem_tail hn)

/-- All that is built is sound. -/
theorem SoundBuilder.finish (h : SoundBuilder b) {literal : Option Text} (hfits : Fits b literal) :
    ∀ n ∈ b.finish, Sound [] n := by
  have htail : ∀ name ∈ (b.flush .shown).names.tail, isLiteralName name = false := by
    rw [names_flush]
    cases literal with
    | none => exact fun n hn => hfits n (List.mem_of_mem_tail hn)
    | some name =>
      obtain ⟨-,attrs,fs,hopened,hrest⟩ := hfits
      rw [Builder.names,hopened]
      exact List.forall_mem_map.mpr hrest
  have hsound := (h.flush hfits).pops htail (b.flush .shown).opened
  intro n hn
  exact hsound.roots n (List.mem_reverse.mp hn)

end Operations

end Longform.Html
