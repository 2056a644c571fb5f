import Mathlib.Data.Option.Defs
import Longform.Markdown.Block
import Longform.Proofs.Markdown.Block.Beginning
import Longform.Proofs.Outcome

/-! Rules that read nothing behind the lines they may read: in a state cut off there they come to the
same, and they leave everything but line, tokens and definitions as it was. -/
namespace Longform.Markdown.Block
open State

/-- The line is no run of three or more colons. -/
def State.IsQuiet (s : State) (n : Nat) : Prop :=
  ∀ k, 3 ≤ k → Text.trim (s.lineText n) ≠ List.replicate k ':'

/-- What holds while blocks are read, and holds of the lines of a text: lines up to `m` may be read, and
line `m` closes no aside. -/
structure State.Bounded (m b : Nat) (s : State) : Prop extends s.Lined m b where
  max : s.lineMax ≤ m
  quiet : s.IsQuiet m

/-- What was pushed before has not changed. -/
def Extends (ts us : Array Token) : Prop := ∀ k < ts.size, us[k]? = ts[k]?

/-- What a block leaves as it was. -/
structure State.Keeps (s after : State) : Prop where
  src : after.src = s.src
  lines : after.lines = s.lines
  lineMax : after.lineMax = s.lineMax
  blockIndent : after.blockIndent = s.blockIndent
  listIndent : after.listIndent = s.listIndent
  parent : after.parent = s.parent
  tokens : Extends s.tokens after.tokens

/-- After a block, in a state and in the state cut off. -/
def Follows (m b : Nat) (s after cutAfter : State) : Prop :=
  s.Keeps after ∧ after.line ≤ m ∧ cutAfter = after.cut m b

/-- The rule comes to the same in states that are cut off behind line `m`. -/
def Rule.IsLocal (m b : Nat) (rule : Rule) : Prop :=
  ∀ s start stop, s.Bounded m b → start < stop → stop ≤ s.lineMax →
    Both (Option.Rel (Follows m b s)) (rule s start stop) (rule (s.cut m b) start stop)

variable {s t u : State} {m b n start stop last fuel : Nat}

section States

theorem Extends.refl (ts : Array Token) : Extends ts ts := fun _ _ => rfl

theorem Extends.size_le {ts us : Array Token} (h : Extends ts us) : ts.size ≤ us.size := by
  rcases Nat.lt_or_ge us.size ts.size with hlt | hge
  · have hlast := h us.size hlt
    rw [Array.getElem?_eq_none (Nat.le_refl _),Array.getElem?_eq_getElem hlt] at hlast
    cases hlast
  · exact hge

theorem Extends.trans {ts us vs : Array Token} (h : Extends ts us) (h' : Extends us vs) :
    Extends ts vs := fun k hk => (h' k (Nat.lt_of_lt_of_le hk h.size_le)).trans (h k hk)

theorem extends_push (ts : Array Token) (tk : Token) : Extends ts (ts.push tk) := by
  intro k hk
  rw [Array.getElem?_push,if_neg (by omega)]

theorem Extends.modify {ts us : Array Token} {i : Nat} {f : Token → Token} (h : Extends ts us)
    (hi : ts.size ≤ i) : Extends ts (us.modify i f) := by
  intro k hk
  rw [Array.getElem?_modify,if_neg (by omega)]
  exact h k hk

theorem State.Keeps.refl (s : State) : s.Keeps s := ⟨rfl,rfl,rfl,rfl,rfl,rfl,.refl _⟩

theorem State.Keeps.trans (h : s.Keeps t) (h' : t.Keeps u) : s.Keeps u :=
  ⟨h'.src.trans h.src,h'.lines.trans h.lines,h'.lineMax.trans h.lineMax,
    h'.blockIndent.trans h.blockIndent,h'.listIndent.trans h.listIndent,h'.parent.trans h.parent,
    h.tokens.trans h'.tokens⟩

theorem State.keeps_goTo (n : Nat) : s.Keeps (s.goTo n) := ⟨rfl,rfl,rfl,rfl,rfl,rfl,.refl _⟩

theorem State.keeps_push (tk : Token) : s.Keeps (s.push tk) :=
  ⟨rfl,rfl,rfl,rfl,rfl,rfl,extends_push _ _⟩

theorem State.keeps_pushAll (ts : List Token) : s.Keeps (s.pushAll ts) := by
  induction ts generalizing s with
  | nil => exact .refl s
  | cons tk ts ih => exact (keeps_push tk).trans ih

theorem line_pushAll (ts : List Token) : (s.pushAll ts).line = s.line := by
  induction ts generalizing s with
  | nil => rfl
  | cons tk ts ih => exact ih (s:=s.push tk)

theorem State.IsQuiet.congr (h : s.IsQuiet n) (hsrc : t.src = s.src) (hline : t.lineAt n = s.lineAt n) :
    t.IsQuiet n := by
  rw [IsQuiet,lineText,slice,hsrc,hline]
  exact h

theorem isQuiet_of_isEmpty (h : s.isEmpty n = true) : s.IsQuiet n := by
  intro k hk he
  have hle : (s.lineAt n).stop ≤ (s.lineAt n).textStart := by
    rw [State.isEmpty,Line.isEmpty] at h
    exact of_decide_eq_true h
  have hnil : s.lineText n = [] := by
    rw [lineText,State.slice,Markdown.slice]
    simp
    omega
  rw [hnil] at he
  have hlength := congrArg List.length he
  rw [List.length_replicate] at hlength
  exact absurd hk (hlength ▸ by decide)

theorem State.Bounded.congr (h : s.Bounded m b) (hsrc : t.src = s.src) (hlines : t.lines = s.lines)
    (hmax : t.lineMax ≤ m) : t.Bounded m b :=
  ⟨h.toLined.congr hsrc hlines,hmax,h.quiet.congr hsrc (lineAt_congr hlines m)⟩

theorem State.Bounded.keeps (h : s.Bounded m b) (hkeeps : s.Keeps t) : t.Bounded m b :=
  h.congr hkeeps.src hkeeps.lines (hkeeps.lineMax ▸ h.max)

theorem declined : Both (Option.Rel (Follows m b s)) (.ok none) (.ok none) := both_ok .none

/-- Readings that push tokens and go on at a line. -/
theorem reads_pushAll (ts : List Token) (hlast : last ≤ m) :
    Both (Option.Rel (Follows m b s)) (.ok (some ({ s with line := last }.pushAll ts)))
      (.ok (some ({ s.cut m b with line := last }.pushAll ts))) := by
  refine both_ok (.some ⟨(keeps_goTo last).trans (keeps_pushAll ts),?_,pushAll_cut (s:=s.goTo last) ts⟩)
  rw [line_pushAll]
  exact hlast

end States

section Code

theorem codeEnd_cut (hstop : stop ≤ m) :
    codeEnd (s.cut m b) stop fuel n last = codeEnd s stop fuel n last := by
  induction fuel generalizing n last with
  | zero => rfl
  | succ fuel ih =>
    rw [codeEnd,codeEnd]
    by_cases hn : n < stop
    · rw [isEmpty_cut (by omega),isCode_cut (by omega)]
      simp only [ih]
    · simp [Nat.le_of_not_lt hn]

theorem codeEnd_le (hlast : last ≤ stop) : codeEnd s stop fuel n last ≤ stop := by
  induction fuel generalizing n last with
  | zero => exact hlast
  | succ fuel ih =>
    rw [codeEnd]
    split
    · exact hlast
    split
    · exact ih hlast
    split
    · exact ih (by omega)
    · exact hlast

theorem isLocal_code : Rule.IsLocal m b code := by
  intro s start stop h hstart hstop
  have hmax := h.max
  have hle : codeEnd s stop (stop - start) (start + 1) (start + 1) ≤ stop := codeEnd_le hstart
  simp only [code,isCode_cut (show start < m by omega),codeEnd_cut (show stop ≤ m by omega)]
  split
  · exact declined
  · rw [h.linesFrom_cut (by omega)]
    exact reads_pushAll [_] (by omega)

end Code

section Fences

variable {o : FenceOpening}

theorem closesFence_cut (h : s.Lined m b) (ho : o.mark ≠ '\n') (hn : n < m) :
    closesFence (s.cut m b) o n = closesFence s o n := by
  have hp : decide ('\n' = o.mark) = false := by simpa using ho.symm
  have hend := h.runEnd_cut hn (p:=(· = o.mark)) hp (h.fits n hn)
  have hgaps := h.skipGaps_cut hn (h.runEnd_le hn (p:=(· = o.mark)) hp (h.fits n hn))
  simp only [closesFence,lineAt_cut hn,isCode_cut hn,hend,hgaps]

theorem fenceEnd_cut (h : s.Lined m b) (ho : o.mark ≠ '\n') (hstop : stop ≤ m) :
    fenceEnd (s.cut m b) o stop fuel n = fenceEnd s o stop fuel n := by
  induction fuel generalizing n with
  | zero => rfl
  | succ fuel ih =>
    simp only [fenceEnd]
    by_cases hn : n < stop
    · have hn' : n < m := by omega
      simp only [lineAt_cut hn',isOutdented_cut hn',h.char?_textStart hn',closesFence_cut h ho hn',ih]
    · simp [Nat.le_of_not_lt hn]

/-- A fence ends before line `stop`, or there without a closing line. -/
theorem fenceEnd_le {last : Nat} {closed : Bool} (hn : n ≤ stop)
    (h : fenceEnd s o stop fuel n = (last,closed)) : (if closed then last + 1 else last) ≤ stop := by
  induction fuel generalizing n with
  | zero =>
    cases h
    exact hn
  | succ fuel ih =>
    simp only [fenceEnd] at h
    split at h
    · cases h
      exact hn
    rename_i hnot
    simp only [Bool.or_eq_true,decide_eq_true_eq,not_or,Nat.not_le] at hnot
    split at h
    · cases h
      exact hn
    split at h
    · cases h
      exact hnot.1
    · exact ih hnot.1 h

theorem isLocal_fence : Rule.IsLocal m b fence := by
  intro s start stop h hstart hstop
  have hmax := h.max
  have hn : start < m := by omega
  rw [fence,fence,fenceAt?_cut h.toLined hn]
  cases ho : fenceAt? s start with
  | none => exact declined
  | some o =>
    obtain ⟨hmark,hbegin,hmarks,hend⟩ := fenceAt?_eq_some h.toLined hn ho
    have hbefore := h.before start hn
    simp only [fenceEnd_cut h.toLined hmark (show stop ≤ m by omega),indent_cut hn]
    rcases hlast : fenceEnd s o stop (stop - start) (start + 1) with ⟨last,closed⟩
    have hle := fenceEnd_le hstart hlast
    have hlast' : last ≤ m := by
      split at hle <;> omega
    simp only
    rw [slice_cut (by omega),slice_cut (by omega),h.linesFrom_cut hlast']
    exact reads_pushAll [_] (by omega)

end Fences

section Leaves

theorem isLocal_thematicBreak : Rule.IsLocal m b thematicBreak := by
  intro s start stop h hstart hstop
  have hmax := h.max
  rw [thematicBreak,thematicBreak,breakAt?_cut h.toLined (by omega)]
  cases breakAt? s start with
  | none => exact declined
  | some found => exact reads_pushAll [_] (by omega)

theorem isLocal_heading : Rule.IsLocal m b heading := by
  intro s start stop h hstart hstop
  have hmax := h.max
  have hn : start < m := by omega
  rw [heading,heading,headingAt?_cut h.toLined hn]
  rcases headingAt? s start with e | _ | ⟨level,marksEnd⟩
  · exact both_error e
  · exact declined
  · simp only [lineAt_cut hn]
    rw [slice_cut (Nat.le_of_lt (h.before start hn))]
    exact reads_pushAll _ (by omega)

theorem rawEnd_cut {k : RawHtml.Kind} (h : s.Lined m b) (hstop : stop ≤ m) :
    rawEnd (s.cut m b) k stop fuel n = rawEnd s k stop fuel n := by
  induction fuel generalizing n with
  | zero => rfl
  | succ fuel ih =>
    simp only [rawEnd]
    by_cases hn : n < stop
    · have hn' : n < m := by omega
      simp only [isOutdented_cut hn',lineText_cut hn' h,ih]
    · simp [Nat.le_of_not_lt hn]

theorem rawEnd_le {k : RawHtml.Kind} (hn : n ≤ stop) : rawEnd s k stop fuel n ≤ stop := by
  induction fuel generalizing n with
  | zero => exact hn
  | succ fuel ih =>
    simp only [rawEnd]
    split
    · exact hn
    rename_i hnot
    simp only [Bool.or_eq_true,decide_eq_true_eq,not_or,Nat.not_le] at hnot
    split
    · split <;> omega
    · exact ih hnot.1

theorem isLocal_rawBlock : Rule.IsLocal m b rawBlock := by
  intro s start stop h hstart hstop
  have hmax := h.max
  have hn : start < m := by omega
  rw [rawBlock,rawBlock,rawAt?_cut h.toLined hn]
  rcases rawAt? s start with e | _ | k
  · exact both_error e
  · exact declined
  · simp only [lineText_cut hn h.toLined,rawEnd_cut h.toLined (show stop ≤ m by omega)]
    have hle : (if k.endsAt (s.lineText start) then start + 1
        else rawEnd s k stop (stop - start) (start + 1)) ≤ m := by
      split
      · omega
      · exact Nat.le_trans (rawEnd_le hstart) (by omega)
    rw [h.linesFrom_cut hle]
    exact reads_pushAll [_] hle

end Leaves

section Tables

theorem rowsFrom_cut {as : List Alignment} {completed : Int} (h : s.Lined m b) (hstop : stop ≤ m) :
    rowsFrom (s.cut m b) as stop fuel n completed = rowsFrom s as stop fuel n completed := by
  induction fuel generalizing n completed with
  | zero => rfl
  | succ fuel ih =>
    rw [rowsFrom,rowsFrom]
    by_cases hn : n < stop
    · have hn' : n < m := by omega
      simp only [isOutdented_cut hn',interruptsQuote_cut h hn',lineText_cut hn' h,isCode_cut hn',ih]
    · simp [Nat.le_of_not_lt hn]

theorem rowsFrom_le {as : List Alignment} {completed : Int} {ts : List Token} (hn : n ≤ stop)
    (h : rowsFrom s as stop fuel n completed = .ok (ts,last)) : last ≤ stop := by
  induction fuel generalizing n completed ts with
  | zero =>
    cases h
    exact hn
  | succ fuel ih =>
    rw [rowsFrom] at h
    split at h
    · cases h
      exact hn
    rename_i hnot
    simp only [Bool.or_eq_true,decide_eq_true_eq,not_or,Nat.not_le] at hnot
    split at h
    · cases h
    · cases h
      exact hn
    simp only at h
    split at h
    · cases h
      exact hn
    split at h
    · cases h
    · rename_i hrest
      cases h
      exact ih hnot.1 hrest

theorem isLocal_table : Rule.IsLocal m b table := by
  intro s start stop h hstart hstop
  have hmax := h.max
  have hn : start < m := by omega
  have hrows : ∀ as fuel n, rowsFrom ((s.cut m b).under .table) as stop fuel n 0 =
      rowsFrom (s.under .table) as stop fuel n 0 := fun as fuel n =>
    rowsFrom_cut (s:=s.under .table) (h.toLined.congr rfl rfl) (by omega)
  have htwo : ∀ header, tableAt? s start stop = some header → start + 2 ≤ stop := by
    intro header hheader
    rw [tableAt?] at hheader
    split at hheader
    · cases hheader
    rename_i hnot
    simp only [Bool.or_eq_true,decide_eq_true_eq,not_or,Nat.not_lt] at hnot
    exact hnot.1.1.1
  rw [table,table,tableAt?_cut h.toLined hn (by omega)]
  cases hheader : tableAt? s start stop with
  | none => exact declined
  | some header =>
    simp only [hrows]
    cases hlast : rowsFrom (s.under .table) header.alignments stop (stop - start) (start + 2) 0 with
    | error e => exact both_error e
    | ok found =>
      have hle := rowsFrom_le (htwo header hheader) hlast
      exact reads_pushAll _ (by omega)

end Tables

section Paragraphs

theorem paragraphEnd_cut (h : s.Lined m b) (hmax : s.lineMax ≤ m) :
    paragraphEnd (s.cut m b) fuel n = paragraphEnd s fuel n := by
  have hcut : (s.cut m b).lineMax = s.lineMax := rfl
  have hindent : (s.cut m b).blockIndent = s.blockIndent := rfl
  induction fuel generalizing n with
  | zero => rfl
  | succ fuel ih =>
    rw [paragraphEnd,paragraphEnd,hcut,hindent]
    by_cases hn : n < s.lineMax
    · have hn' : n < m := by omega
      simp only [isEmpty_cut hn',indent_cut hn',interruptsText_cut h hn' hmax,ih]
    · simp [Nat.le_of_not_lt hn]

theorem paragraphEnd_le (hn : n ≤ s.lineMax) (h : paragraphEnd s fuel n = .ok last) :
    last ≤ s.lineMax := by
  induction fuel generalizing n with
  | zero =>
    cases h
    exact hn
  | succ fuel ih =>
    rw [paragraphEnd] at h
    split at h
    · cases h
      exact hn
    rename_i hnot
    simp only [Bool.or_eq_true,decide_eq_true_eq,not_or,Nat.not_le] at hnot
    split at h
    · exact ih hnot.1 h
    split at h
    · cases h
    · cases h
      exact hn
    · exact ih hnot.1 h

theorem isLocal_paragraph : Rule.IsLocal m b paragraph := by
  intro s start stop h hstart hstop
  have hmax := h.max
  have hend : paragraphEnd ((s.cut m b).under .paragraph) (s.lineMax - start) (start + 1) =
      paragraphEnd (s.under .paragraph) (s.lineMax - start) (start + 1) :=
    paragraphEnd_cut (s:=s.under .paragraph) (h.toLined.congr rfl rfl) hmax
  have hcut : (s.cut m b).lineMax = s.lineMax := rfl
  rw [paragraph,paragraph,hcut,hend]
  cases hlast : paragraphEnd (s.under .paragraph) (s.lineMax - start) (start + 1) with
  | error e => exact both_error e
  | ok last =>
    have hnext : start + 1 ≤ s.lineMax := by omega
    have hle : last ≤ s.lineMax := paragraphEnd_le (s:=s.under .paragraph) hnext hlast
    simp only
    rw [h.linesFrom_cut (by omega)]
    exact reads_pushAll _ (by omega)

theorem underline?_cut (h : s.Lined m b) (hn : n < m) : underline? (s.cut m b) n = underline? s n := by
  simp only [underline?,isOutdented_cut hn,lineAt_cut hn,h.char?_textStart hn]
  split
  · rfl
  split
  · rename_i c hc
    by_cases hmark : c = '-' ∨ c = '='
    · have hp : decide ('\n' = c) = false := by rcases hmark with rfl | rfl <;> rfl
      rw [h.runEnd_cut hn hp (h.fits n hn),h.skipGaps_cut hn (h.runEnd_le hn hp (h.fits n hn))]
    · rw [not_or] at hmark
      simp [hmark]
  · rfl

theorem underlineFrom_cut (h : s.Lined m b) (hstop : stop ≤ m) :
    underlineFrom (s.cut m b) stop fuel n = underlineFrom s stop fuel n := by
  have hindent : (s.cut m b).blockIndent = s.blockIndent := rfl
  induction fuel generalizing n with
  | zero => rfl
  | succ fuel ih =>
    rw [underlineFrom,underlineFrom,hindent]
    by_cases hn : n < stop
    · have hn' : n < m := by omega
      simp only [isEmpty_cut hn',indent_cut hn',underline?_cut h hn',interruptsText_cut h hn' hstop,ih]
    · simp [Nat.le_of_not_lt hn]

theorem underlineFrom_lt {c : Char} (h : underlineFrom s stop fuel n = .ok (some (last,c))) :
    last < stop := by
  induction fuel generalizing n with
  | zero => cases h
  | succ fuel ih =>
    rw [underlineFrom] at h
    split at h
    · cases h
    rename_i hnot
    simp only [Bool.or_eq_true,decide_eq_true_eq,not_or,Nat.not_le] at hnot
    split at h
    · exact ih h
    split at h
    · cases h
      exact hnot.1
    split at h
    · exact ih h
    split at h
    · cases h
    · cases h
    · exact ih h

theorem isLocal_underlined : Rule.IsLocal m b underlined := by
  intro s start stop h hstart hstop
  have hmax := h.max
  have hend : underlineFrom ((s.cut m b).under .paragraph) stop (stop - start) (start + 1) =
      underlineFrom (s.under .paragraph) stop (stop - start) (start + 1) :=
    underlineFrom_cut (s:=s.under .paragraph) (h.toLined.congr rfl rfl) (by omega)
  rw [underlined,underlined,isCode_cut (by omega),hend]
  split
  · exact declined
  cases hlast : underlineFrom (s.under .paragraph) stop (stop - start) (start + 1) with
  | error e => exact both_error e
  | ok found =>
    cases found with
    | none => exact declined
    | some found =>
      obtain ⟨n,c⟩ := found
      have hlt := underlineFrom_lt hlast
      simp only
      rw [h.linesFrom_cut (by omega)]
      exact reads_pushAll _ (by omega)

end Paragraphs

end Longform.Markdown.Block
