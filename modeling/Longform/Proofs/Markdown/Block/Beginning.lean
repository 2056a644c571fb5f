import Longform.Markdown.Block.Table
import Longform.Proofs.Markdown.Block.Cut

/-! Whether a block begins at a line depends on nothing behind the line, or for tables behind the next:
the answers are the same in a state that is cut off there. -/
namespace Longform.Markdown.Block
open State

variable {s : State} {m b n stop : Nat} (h : s.Lined m b) (hn : n < m)

include h hn

theorem breakAt?_cut : breakAt? (s.cut m b) n = breakAt? s n := by
  have hfits := h.fits n hn
  have hbefore := h.before n hn
  simp only [breakAt?,isCode_cut hn,lineAt_cut hn]
  rw [slice_cut (by omega)]

theorem headingAt?_cut : headingAt? (s.cut m b) n = headingAt? s n := by
  have hend := h.runEnd_cut hn (p:=(· = '#')) rfl (h.fits n hn)
  have hbefore := h.before n hn
  simp only [headingAt?,isCode_cut hn,lineAt_cut hn,h.char?_textStart hn,hend]
  rw [char?_cut (by omega)]

theorem rawAt?_cut : rawAt? (s.cut m b) n = rawAt? s n := by
  rw [rawAt?,rawAt?,isCode_cut hn,lineAt_cut hn,h.char?_textStart hn,lineText_cut hn h]

theorem quoteAt_cut : quoteAt (s.cut m b) n = quoteAt s n := by
  rw [quoteAt,quoteAt,isCode_cut hn,lineAt_cut hn,h.char?_textStart hn]

theorem asideAt?_cut : asideAt? (s.cut m b) n = asideAt? s n := by
  have hend := h.runEnd_cut hn (p:=(· = ':')) rfl (h.fits n hn)
  simp only [asideAt?,lineAt_cut hn,hend]

section Fences

theorem fenceAt?_cut : fenceAt? (s.cut m b) n = fenceAt? s n := by
  simp only [fenceAt?,isCode_cut hn,lineAt_cut hn,h.char?_textStart hn]
  split
  · rfl
  split
  · rename_i c hc
    by_cases hmark : c = '~' ∨ c = '\x60'
    · have hp : decide ('\n' = c) = false := by rcases hmark with rfl | rfl <;> rfl
      rw [h.runEnd_cut hn hp (h.fits n hn),slice_cut (Nat.le_of_lt (h.before n hn))]
    · rw [not_or] at hmark
      simp [hmark]
  · rfl

theorem fenceAt?_eq_some {o : FenceOpening} (ho : fenceAt? s n = some o) :
    o.mark ≠ '\n' ∧ o.start = (s.lineAt n).textStart ∧ o.marksEnd ≤ (s.lineAt n).stop ∧
      o.stop = (s.lineAt n).stop := by
  simp only [fenceAt?] at ho
  split at ho
  · cases ho
  split at ho
  · rename_i c hc
    split at ho
    · cases ho
    rename_i hmark
    have hne : c ≠ '\n' := by
      rintro rfl
      exact hmark rfl
    split at ho
    · cases ho
    cases ho
    exact ⟨hne,rfl,h.runEnd_le hn (by simpa using hne.symm) (h.fits n hn),rfl⟩
  · cases ho

end Fences

section Markers

theorem bulletEnd?_cut : bulletEnd? (s.cut m b) n = bulletEnd? s n := by
  simp only [bulletEnd?,lineAt_cut hn,h.char?_textStart hn]
  have hbefore := h.before n hn
  by_cases hafter : (s.lineAt n).stop ≤ (s.lineAt n).textStart + 1
  · simp only [hafter,decide_true,Bool.true_or]
  · rw [char?_cut (by omega)]

theorem bulletEnd?_inside {e : Nat} (he : bulletEnd? s n = some e) :
    (s.lineAt n).textStart ≤ e ∧ e ≤ (s.lineAt n).stop := by
  simp only [bulletEnd?] at he
  split at he
  · rename_i c hc
    split at he
    · rename_i hmark
      cases he
      refine ⟨Nat.le_succ _,h.textStart_lt hn hc ?_⟩
      rintro rfl
      exact absurd hmark (by simp)
    · cases he
  · cases he

theorem numberEnd?_cut : numberEnd? (s.cut m b) n = numberEnd? s n := by
  simp only [numberEnd?,lineAt_cut hn,lineText_cut hn h]
  split
  · rfl
  · rename_i hmark
    simp only [Bool.or_eq_true,decide_eq_true_eq,not_or,Nat.not_le] at hmark
    have hbefore := h.before n hn
    rw [char?_cut (by omega)]
    by_cases hafter : (s.lineAt n).stop ≤
        (s.lineAt n).textStart + ((s.lineText n).takeWhile Char.isDigit).length + 1
    · simp only [hafter,decide_true,Bool.true_or]
    · rw [char?_cut (by omega)]

omit h hn in
theorem numberEnd?_inside {e : Nat} (he : numberEnd? s n = some e) :
    (s.lineAt n).textStart ≤ e ∧ e ≤ (s.lineAt n).stop := by
  simp only [numberEnd?] at he
  split at he
  · cases he
  rename_i hmark
  simp only [Bool.or_eq_true,decide_eq_true_eq,not_or,Nat.not_le] at hmark
  split at he
  · split at he
    · cases he
      exact ⟨by omega,hmark.2⟩
    · cases he
  · cases he

theorem marker?_cut : marker? (s.cut m b) n = marker? s n := by
  rw [marker?,marker?,numberEnd?_cut h hn,bulletEnd?_cut h hn]
  cases he : numberEnd? s n with
  | none => rfl
  | some e =>
    have hle := (numberEnd?_inside he).2
    have hbefore := h.before n hn
    simp only [lineAt_cut hn]
    rw [slice_cut (by omega)]

theorem marker?_inside {number : Option Nat} {e : Nat} (he : marker? s n = some (number,e)) :
    (s.lineAt n).textStart ≤ e ∧ e ≤ (s.lineAt n).stop := by
  rw [marker?] at he
  split at he
  · rename_i e' he'
    cases he
    exact numberEnd?_inside he'
  · rw [Option.map_eq_some_iff] at he
    obtain ⟨e',he',heq⟩ := he
    cases heq
    exact bulletEnd?_inside h hn he'

theorem listAt_cut {interrupts : Bool} : listAt (s.cut m b) n interrupts = listAt s n interrupts := by
  have hdeep : isTooDeep (s.cut m b) n = isTooDeep s n := by
    rw [isTooDeep,isTooDeep,indent_cut hn,isOutdented_cut hn]
    rfl
  have hparent : (s.cut m b).parent = s.parent := rfl
  simp only [listAt,isCode_cut hn,isOutdented_cut hn,hdeep,hparent,marker?_cut h hn,lineAt_cut hn]
  cases he : marker? s n with
  | none => rfl
  | some found =>
    obtain ⟨number,e⟩ := found
    simp only [h.skipGaps_cut hn (marker?_inside h hn he).2]

end Markers

theorem tableAt?_cut (hstop : stop ≤ m) : tableAt? (s.cut m b) n stop = tableAt? s n stop := by
  rw [tableAt?,tableAt?]
  by_cases hnext : stop < n + 2
  · simp [hnext]
  · have hbelow : n + 1 < m := by omega
    rw [isOutdented_cut hbelow,isCode_cut hbelow,lineText_cut hbelow h,lineText_cut hn h,isCode_cut hn]

theorem interruptsList_cut : interruptsList (s.cut m b) n = interruptsList s n := by
  rw [interruptsList,interruptsList,asideAt?_cut h hn,fenceAt?_cut h hn,quoteAt_cut h hn,
    breakAt?_cut h hn]

theorem interruptsQuote_cut : interruptsQuote (s.cut m b) n = interruptsQuote s n := by
  rw [interruptsQuote,interruptsQuote,interruptsList_cut h hn,listAt_cut h hn,rawAt?_cut h hn,
    headingAt?_cut h hn]

theorem interruptsText_cut (hstop : stop ≤ m) :
    interruptsText (s.cut m b) n stop = interruptsText s n stop := by
  rw [interruptsText,interruptsText,tableAt?_cut h hn hstop,interruptsQuote_cut h hn]

end Longform.Markdown.Block
