import Longform.Proofs.Markdown.Block.Local

/-! Quotes move the beginnings of their lines, read their blocks, and put the lines back. -/
namespace Longform.Markdown.Block
open State

/-- Reading the blocks of a range of lines comes to the same in states that are cut off behind line
`m`. Of an empty last line nothing is read. -/
structure Nested.IsLocal (m b : Nat) (nested : Nested) : Prop where
  both : ∀ s start stop, s.Bounded m b → stop ≤ s.lineMax →
    Both (fun after cutAfter => s.Keeps after ∧ (start < stop → after.line ≤ m) ∧
      cutAfter = after.cut m b) (nested s start stop) (nested (s.cut m b) start stop)
  empty : ∀ s n, s.lineMax = n + 1 → s.isEmpty n = true →
    nested s n (n + 1) = .ok (s.goTo (n + 1))

variable {s t inside after : State} {m b n k start stop last pos fuel : Nat} {l : Line}
  {taken width : Int}

section Gaps

theorem gapWidth_cut (hstop : stop ≤ b) :
    gapWidth (s.cut m b) taken stop fuel pos width = gapWidth s taken stop fuel pos width := by
  induction fuel generalizing pos width with
  | zero => rfl
  | succ fuel ih =>
    rw [gapWidth,gapWidth]
    by_cases hpos : pos < stop
    · rw [char?_cut (by omega)]
      simp only [ih]
    · simp [Nat.le_of_not_lt hpos]

theorem le_gapWidth : pos ≤ (gapWidth s taken stop fuel pos width).1 := by
  induction fuel generalizing pos width with
  | zero => exact Nat.le_refl _
  | succ fuel ih =>
    rw [gapWidth]
    split
    · exact Nat.le_refl _
    split
    · exact Nat.le_of_succ_le ih
    · exact Nat.le_of_succ_le ih
    · exact Nat.le_refl _

theorem gapWidth_le (hpos : pos ≤ stop) : (gapWidth s taken stop fuel pos width).1 ≤ stop := by
  induction fuel generalizing pos width with
  | zero => exact hpos
  | succ fuel ih =>
    rw [gapWidth]
    split
    · exact hpos
    split
    · exact ih (by omega)
    · exact ih (by omega)
    · exact hpos

end Gaps

section Unquoting

variable (h : s.Lined m b) (hn : n < m) (hmark : s.char? (s.lineAt n).textStart = some '>')

include h hn hmark

theorem unquote_cut : unquote (s.cut m b) (s.lineAt n) = unquote s (s.lineAt n) := by
  have hlt := h.textStart_lt hn hmark (by decide)
  have hbefore := h.before n hn
  simp only [unquote,char?_cut (m:=m) (show (s.lineAt n).textStart + 1 < b by omega),
    gapWidth_cut (Nat.le_of_lt hbefore)]

theorem isMoved_unquote : (s.lineAt n).IsMoved (unquote s (s.lineAt n)) := by
  have hlt := h.textStart_lt hn hmark (by decide)
  have hinner : ∀ c, s.char? ((s.lineAt n).textStart + 1) = some c → c ≠ '\n' →
      (s.lineAt n).textStart + 1 < (s.lineAt n).stop := by
    intro c hc hne
    refine Nat.lt_of_le_of_ne hlt fun he => hne ?_
    rw [he] at hc
    exact h.breaks n hn c hc
  have hmoved : ∀ (first taken indent : Int) start, (s.lineAt n).textStart < start →
      start ≤ (s.lineAt n).stop → (s.lineAt n).IsMoved ⟨start,(s.lineAt n).stop,
        (gapWidth s taken (s.lineAt n).stop ((s.lineAt n).stop - start) start first).1 - start,
        (gapWidth s taken (s.lineAt n).stop ((s.lineAt n).stop - start) start first).2 - first,
        indent⟩ := by
    intro first taken indent start hstart hstop
    have hle : (gapWidth s taken (s.lineAt n).stop ((s.lineAt n).stop - start) start first).1 ≤
        (s.lineAt n).stop := gapWidth_le hstop
    have hge : start ≤ (gapWidth s taken (s.lineAt n).stop ((s.lineAt n).stop - start) start first).1 :=
      le_gapWidth
    refine ⟨rfl,?_,?_⟩
    · rw [Line.textStart] at hstart
      simp only
      omega
    · simp only [Line.textStart]
      omega
  simp only [unquote]
  split
  · rename_i hspace
    exact hmoved _ _ _ _ (by omega) (hinner _ hspace (by decide))
  · rename_i htab
    split
    · exact hmoved _ _ _ _ (by omega) (hinner _ htab (by decide))
    · exact hmoved _ _ _ _ (by omega) hlt
  · exact hmoved _ _ _ _ (by omega) hlt

end Unquoting

section Scanning

theorem State.Bounded.setLine (h : s.Bounded m b) (hk : k < m) (hl : (s.lineAt k).IsMoved l) :
    (s.setLine k l).Bounded m b := by
  refine ⟨h.toLined.setLine hk hl,h.max,h.quiet.congr rfl ?_⟩
  rw [lineAt_setLine (Nat.lt_of_lt_of_le hk h.size),if_neg (Nat.ne_of_lt hk)]

/-- A state whose lines from `n` on have been moved, up to where a quote ends. -/
structure Quoted (m b : Nat) (s : State) (n stop : Nat) (inside : State) (last : Nat) : Prop where
  bounded : inside.Bounded m b
  src : inside.src = s.src
  listIndent : inside.listIndent = s.listIndent
  tokens : inside.tokens = s.tokens
  size : inside.lines.size = s.lines.size
  outside : ∀ k, k < n ∨ last < k → inside.lines[k]? = s.lines[k]?
  le : n ≤ last
  stop : last ≤ stop
  max : last ≤ inside.lineMax

theorem Quoted.refl (h : s.Bounded m b) (hn : n ≤ stop) (hmax : n ≤ s.lineMax) :
    Quoted m b s n stop s n :=
  ⟨h,rfl,rfl,rfl,rfl,fun _ _ => rfl,Nat.le_refl _,hn,hmax⟩

theorem Quoted.of_setLine (h : Quoted m b (s.setLine n l) (n + 1) stop inside last) :
    Quoted m b s n stop inside last where
  bounded := h.bounded
  src := h.src
  listIndent := h.listIndent
  tokens := h.tokens
  size := h.size.trans Array.size_setIfInBounds
  outside k hk := by
    have hle := h.le
    rw [h.outside k (by omega),getElem?_setLine,if_neg (by omega)]
  le := Nat.le_of_succ_le h.le
  stop := h.stop
  max := h.max

/-- The line behind a quote may be moved, too. -/
theorem Quoted.moved (h : Quoted m b s n stop inside last) (hk : last < m)
    (hl : (inside.lineAt last).IsMoved l) : Quoted m b s n stop (inside.setLine last l) last where
  bounded := h.bounded.setLine hk hl
  src := h.src
  listIndent := h.listIndent
  tokens := h.tokens
  size := (Array.size_setIfInBounds).trans h.size
  outside k hk := by
    have hle := h.le
    rw [getElem?_setLine,if_neg (by omega)]
    exact h.outside k hk
  le := h.le
  stop := h.stop
  max := h.max

theorem quoteFrom_both {lastEmpty : Bool} (h : s.Bounded m b) (hn : n ≤ stop)
    (hstop : stop ≤ s.lineMax) :
    Both (fun x y => Quoted m b s n stop x.1 x.2 ∧ y = (x.1.cut m b,x.2))
      (quoteFrom stop fuel n lastEmpty s) (quoteFrom stop fuel n lastEmpty (s.cut m b)) := by
  induction fuel generalizing n lastEmpty s with
  | zero => exact both_ok ⟨.refl h hn (Nat.le_trans hn hstop),rfl⟩
  | succ fuel ih =>
    have hends : Quoted m b s n stop s n := .refl h hn (Nat.le_trans hn hstop)
    by_cases hlt : n < stop
    · have hn' : n < m := Nat.lt_of_lt_of_le hlt (Nat.le_trans hstop h.max)
      have hgoesOn : ∀ l lastEmpty, (s.lineAt n).IsMoved l →
          Both (fun x y => Quoted m b s n stop x.1 x.2 ∧ y = (x.1.cut m b,x.2))
            (quoteFrom stop fuel (n + 1) lastEmpty (s.setLine n l))
            (quoteFrom stop fuel (n + 1) lastEmpty ((s.setLine n l).cut m b)) := by
        intro l lastEmpty hl
        exact (ih (h.setLine hn' hl) hlt hstop).mono fun x y hxy => ⟨hxy.1.of_setLine,hxy.2⟩
      simp only [quoteFrom,lineAt_cut hn',h.toLined.char?_textStart hn',isOutdented_cut hn',
        interruptsQuote_cut h.toLined hn']
      split
      · exact both_ok ⟨hends,rfl⟩
      split
      · rename_i hmark
        simp only [Bool.and_eq_true,decide_eq_true_eq] at hmark
        rw [unquote_cut h.toLined hn' hmark.1,setLine_cut fun _ => rfl]
        exact hgoesOn _ _ (isMoved_unquote h.toLined hn' hmark.1)
      split
      · exact both_ok ⟨hends,rfl⟩
      have hfits := h.fits n hn'
      have hended : Quoted m b s n stop { s with lineMax := n } n :=
        ⟨h.congr rfl rfl (Nat.le_of_lt hn'),rfl,rfl,rfl,rfl,fun _ _ => rfl,Nat.le_refl _,hn,Nat.le_refl _⟩
      rcases interruptsQuote s n with e | _ | _
      · exact both_error e
      · simp only
        rw [setLine_cut fun _ => rfl]
        exact hgoesOn _ _ ⟨rfl,Nat.le_refl _,hfits⟩
      · have hindent : (s.cut m b).blockIndent = s.blockIndent := rfl
        simp only [hindent]
        by_cases hzero : s.blockIndent = 0
        · rw [if_pos hzero,if_pos hzero]
          exact both_ok ⟨hended,rfl⟩
        · rw [if_neg hzero,if_neg hzero]
          refine both_ok ⟨?_,Prod.ext (setLine_cut (s:={ s with lineMax := n }) fun _ => rfl) rfl⟩
          exact hended.moved hn' ⟨rfl,Nat.le_refl _,hfits⟩
    · simp only [quoteFrom,Nat.le_of_not_lt hlt,decide_true,Bool.true_or,if_true]
      exact both_ok ⟨hends,rfl⟩

end Scanning

section Restoring

/-- Lines that have been changed in a range only are what they were once the range is put back. -/
theorem restoreLines_eq {old : Array Line} (hsize : t.lines.size = old.size)
    (hout : ∀ k, k < start ∨ stop ≤ k → t.lines[k]? = old[k]?) :
    restoreLines old start stop t = { t with lines := old } := by
  have hrestored : ∀ count, ∃ ls, (List.range count).foldl
      (fun s i => s.setLine (start + i) (old.getD (start + i) default)) t = { t with lines := ls } ∧
      ls.size = old.size ∧ ∀ k, ls[k]? = if start ≤ k ∧ k < start + count then old[k]? else t.lines[k]? := by
    intro count
    induction count with
    | zero => exact ⟨t.lines,rfl,hsize,fun k => by rw [if_neg (by omega)]⟩
    | succ count ih =>
      obtain ⟨ls,hls,hlength,hlines⟩ := ih
      refine ⟨ls.set! (start + count) (old.getD (start + count) default),?_,?_,fun k => ?_⟩
      · rw [List.range_succ,List.foldl_append,hls]
        rfl
      · rw [Array.set!_eq_setIfInBounds,Array.size_setIfInBounds,hlength]
      · rw [Array.set!_eq_setIfInBounds,Array.getElem?_setIfInBounds,hlines,hlength]
        by_cases hk : start + count = k
        · subst hk
          have hrange : start ≤ start + count ∧ start + count < start + (count + 1) := by omega
          rw [if_pos rfl,if_pos hrange,Array.getD_eq_getD_getElem?]
          by_cases hin : start + count < old.size
          · simp [hin]
          · rw [if_neg hin,Array.getElem?_eq_none (Nat.le_of_not_lt hin)]
        · have hrange : (start ≤ k ∧ k < start + (count + 1)) ↔ start ≤ k ∧ k < start + count := by omega
          simp only [hk,hrange,if_false]
  obtain ⟨ls,hls,hlength,hlines⟩ := hrestored (stop - start)
  rw [restoreLines,hls]
  have hold : ls = old := by
    apply Array.ext_getElem?
    intro k
    rw [hlines]
    split
    · rfl
    · exact hout k (by omega)
  rw [hold]

theorem leaveQuote_eq (hsize : after.lines.size = s.lines.size)
    (hout : ∀ k, k < start ∨ last < k → after.lines[k]? = s.lines[k]?) :
    leaveQuote s start last after =
      { (after.push { Token.make "blockquote_close" "blockquote" (-1) with markup := ['>'] }).setMap
          s.tokens.size start after.line with
        lines := s.lines, lineMax := s.lineMax, blockIndent := s.blockIndent, parent := s.parent } :=
  restoreLines_eq hsize hout

end Restoring

theorem isLocal_quote {nested : Nested} (hnested : nested.IsLocal m b) :
    Rule.IsLocal m b (quote nested) := by
  intro s start stop h hstart hstop
  have hmax := h.max
  have hn : start < m := by omega
  simp only [quote,quoteAt_cut h.toLined hn]
  split
  · exact declined
  rename_i hquote
  have hmark : s.char? (s.lineAt start).textStart = some '>' := by
    simp only [quoteAt,Bool.not_eq_true',Bool.not_eq_false,Bool.and_eq_true,decide_eq_true_eq] at hquote
    exact hquote.2
  have hmoved := isMoved_unquote h.toLined hn hmark
  have hunder : (s.under .quote).Bounded m b := h.congr rfl rfl hmax
  have hfirst : ((s.cut m b).under .quote).setLine start (unquote s (s.lineAt start)) =
      ((s.under .quote).setLine start (unquote s (s.lineAt start))).cut m b :=
    setLine_cut (s:=s.under .quote) fun _ => rfl
  rw [lineAt_cut hn,unquote_cut h.toLined hn hmark,hfirst]
  rcases quoteFrom_both (hunder.setLine hn hmoved) hstart hstop with
    ⟨e,hx,hy⟩ | ⟨⟨inside,last⟩,_,hx,hy,hq,rfl⟩
  · rw [hx,hy]
    exact both_error e
  have hq' := hq.of_setLine
  have henter : (enterQuote inside).Bounded m b := hq.bounded.congr rfl rfl hq.bounded.max
  have hcut : enterQuote (inside.cut m b) = (enterQuote inside).cut m b := rfl
  rw [hx,hy]
  simp only [hcut]
  rcases hnested.both _ start last henter hq.max with ⟨e,hx,hy⟩ | ⟨after,_,hx,hy,hkeeps,hline,rfl⟩
  · rw [hx,hy]
    exact both_error e
  rw [hx,hy]
  have hlines : after.lines = inside.lines := hkeeps.lines
  have hsize : after.lines.size = s.lines.size := by
    rw [hlines]
    exact hq'.size
  have hout : ∀ k, k < start ∨ last < k → after.lines[k]? = s.lines[k]? := by
    rw [hlines]
    exact hq'.outside
  refine both_ok (.some ?_)
  rw [leaveQuote_eq hsize hout,leaveQuote_eq (s:=s.cut m b)]
  · have hpushed : Extends s.tokens after.tokens :=
      hq'.tokens ▸ (extends_push _ _).trans hkeeps.tokens
    exact ⟨⟨hkeeps.src.trans hq'.src,rfl,rfl,rfl,hkeeps.listIndent.trans hq'.listIndent,rfl,
      (hpushed.trans (extends_push _ _)).modify (Nat.le_refl _)⟩,hline hq.le,rfl⟩
  · simp [cut,hsize]
  · intro k hk
    rw [getElem?_cut,getElem?_cut,hout k hk]

end Longform.Markdown.Block
