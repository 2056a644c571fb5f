import Longform.Proofs.Markdown.Block.Quote

/-! Lists read item after item. An item moves the beginning of its first line behind the marker while
its blocks are read. -/
namespace Longform.Markdown.Block
open State

variable {s inside after : State} {m b n start stop markerEnd : Nat} {nested : Nested}
  {ordered : Bool} {mark : Char} {r : ListReading}

section Items

theorem enterItem_cut {opening : Token} {l : Line} {indent : Int} :
    enterItem (s.cut m b) opening start l indent = (enterItem s opening start l indent).cut m b :=
  setLine_cut (s:={ s.push opening with
    listIndent := s.blockIndent, blockIndent := indent, tight := true }) fun _ => rfl

theorem leaveItem_cut (hn : start < m) :
    leaveItem (s.cut m b) mark start (after.cut m b) = (leaveItem s mark start after).cut m b := by
  have hset : ∀ (t : State) l, (t.cut m b).setLine start l = (t.setLine start l).cut m b :=
    fun t l => setLine_cut fun _ => rfl
  simp only [leaveItem,lineAt_cut hn]
  exact congrArg (fun t => (t.push { Token.make "list_item_close" "li" (-1) with
    markup := [mark] }).setMap s.tokens.size start t.line) (hset { after with
      blockIndent := s.blockIndent, listIndent := s.listIndent, tight := s.tight } _)

/-- Behind an item its first line is what it was. -/
theorem lines_leaveItem {shift : Nat} {indent : Int} (hn : start < s.lines.size)
    (hlines : after.lines =
      (s.setLine start { s.lineAt start with shift := shift, indent := indent }).lines) :
    (leaveItem s mark start after).lines = s.lines := by
  have hnow : after.lineAt start = { s.lineAt start with shift := shift, indent := indent } := by
    rw [lineAt_congr hlines,lineAt_setLine hn,if_pos rfl]
  have hsize : after.lines.size = s.lines.size := by
    rw [hlines]
    exact Array.size_setIfInBounds
  have hline : s.lines[start]? = some (s.lineAt start) := by
    rw [lineAt,Array.getD_eq_getD_getElem?,Array.getElem?_eq_getElem hn]
    rfl
  apply Array.ext_getElem?
  intro k
  have hset : (leaveItem s mark start after).lines[k]? =
      (after.setLine start (s.lineAt start)).lines[k]? := by
    simp only [leaveItem,hnow]
    rfl
  rw [hset,getElem?_setLine,hsize,if_pos hn]
  by_cases hk : start = k
  · rw [if_pos hk,← hk,hline]
  · rw [if_neg hk,hlines,getElem?_setLine,if_neg hk]

theorem itemBlocks_both {isBare : Bool} (hnested : nested.IsLocal m b) (h : inside.Bounded m b)
    (hstart : start < stop) (hstop : stop ≤ inside.lineMax)
    (hbare : isBare = true → inside.isEmpty start = true) :
    Both (Follows m b inside) (itemBlocks nested start stop isBare inside)
      (itemBlocks nested start stop isBare (inside.cut m b)) := by
  have hmax := h.max
  have hblocks : Both (Follows m b inside) (nested inside start stop)
      (nested (inside.cut m b) start stop) :=
    (hnested.both inside start stop h hstop).mono fun _ _ ⟨hkeeps,hline,hcut⟩ =>
      ⟨hkeeps,hline hstart,hcut⟩
  have hpassed : ∀ next, next ≤ m → Both (Follows m b inside) (.ok (inside.goTo next))
      (.ok ((inside.cut m b).goTo next)) := fun next hnext => both_ok ⟨keeps_goTo next,hnext,rfl⟩
  rw [itemBlocks,itemBlocks]
  by_cases hin : start + 1 < m
  · rw [isEmpty_cut hin]
    split
    · exact hpassed _ (by omega)
    · exact hblocks
  · -- The line below is behind the range, and it does not matter whether it is empty.
    obtain rfl : stop = start + 1 := by omega
    cases isBare with
    | false => simpa using hblocks
    | true =>
      have hmin : min (start + 2) (start + 1) = start + 1 := by omega
      have hfirst := hbare rfl
      have hlineMax : inside.lineMax = start + 1 := by omega
      rw [hnested.empty inside start hlineMax hfirst,hmin,
        hnested.empty (inside.cut m b) start hlineMax ((isEmpty_cut (by omega)).trans hfirst)]
      rw [ite_self,ite_self]
      exact hpassed _ (by omega)

/-- The blocks of an item whose content begins at `content`, and the state behind it. -/
theorem enterItem_both (mark : Char) {content : Nat} {opening : Token} {width indent : Int}
    (hnested : nested.IsLocal m b) (h : s.Bounded m b) (hstart : start < stop) (hstop : stop ≤ s.lineMax)
    (hge : (s.lineAt start).textStart ≤ content) (hle : content ≤ (s.lineAt start).stop) :
    let inside := enterItem s opening start
      { s.lineAt start with shift := content - (s.lineAt start).start, indent := width } indent
    Both (fun after cutAfter => after.line ≤ m ∧ s.Keeps (leaveItem s mark start after) ∧
        cutAfter = after.cut m b)
      (itemBlocks nested start stop ((s.lineAt start).stop ≤ content) inside)
      (itemBlocks nested start stop ((s.lineAt start).stop ≤ content) (inside.cut m b)) := by
  intro inside
  have hmax := h.max
  have hn : start < m := by omega
  have hsize : start < s.lines.size := Nat.lt_of_lt_of_le hn h.size
  have hbegin : (s.lineAt start).start ≤ content := Nat.le_trans (Nat.le_add_right _ _) hge
  have hmoved : (s.lineAt start).IsMoved
      { s.lineAt start with shift := content - (s.lineAt start).start, indent := width } := by
    refine ⟨rfl,Nat.le_refl _,?_⟩
    simp only [Line.textStart]
    omega
  have hinside : inside.Bounded m b := (h.setLine hn hmoved).congr rfl rfl hmax
  have hbare : decide ((s.lineAt start).stop ≤ content) = true → inside.isEmpty start = true := by
    intro hstop'
    rw [decide_eq_true_eq] at hstop'
    have hline : inside.lineAt start = _ := (lineAt_setLine hsize).trans (if_pos rfl)
    rw [State.isEmpty,hline]
    simp only [Line.isEmpty,Line.textStart]
    exact decide_eq_true (by omega)
  refine (itemBlocks_both hnested hinside hstart hstop hbare).mono fun after cutAfter hafter => ?_
  obtain ⟨hkeeps,hline,hcut⟩ := hafter
  have hpushed : Extends s.tokens after.tokens := (extends_push _ _).trans hkeeps.tokens
  exact ⟨hline,⟨hkeeps.src,lines_leaveItem hsize hkeeps.lines,hkeeps.lineMax,rfl,rfl,hkeeps.parent,
    (hpushed.trans (extends_push _ _)).modify (Nat.le_refl _)⟩,hcut⟩

/-- After an item or more of a list, in a state and in the state cut off. -/
def ItemFollows (m b : Nat) (s : State) (r cutAfter : ListReading) : Prop :=
  s.Keeps r.state ∧ r.state.line ≤ m ∧ cutAfter = { r with state := r.state.cut m b }

theorem readItem_both (ordered : Bool) (mark : Char) (hnested : nested.IsLocal m b)
    (h : r.state.Bounded m b) (hstart : start < stop) (hstop : stop ≤ r.state.lineMax)
    (hmark : (r.state.lineAt start).textStart ≤ markerEnd)
    (hmarker : markerEnd ≤ (r.state.lineAt start).stop) :
    Both (ItemFollows m b r.state) (readItem nested ordered mark start stop markerEnd r)
      (readItem nested ordered mark start stop markerEnd { r with state := r.state.cut m b }) := by
  have hmax := h.max
  have hn : start < m := by omega
  have hbefore := h.before start hn
  simp only [readItem,lineAt_cut hn,gapWidth_cut (Nat.le_of_lt hbefore),
    slice_cut (show markerEnd - 1 ≤ b by omega),enterItem_cut]
  rcases enterItem_both mark hnested h hstart hstop (Nat.le_trans hmark le_gapWidth)
      (gapWidth_le hmarker) with ⟨e,hx,hy⟩ | ⟨after,_,hx,hy,hline,hkeeps,rfl⟩
  · rw [hx,hy]
    exact both_error e
  rw [hx,hy]
  have hempty : (decide (1 < after.line - start) && (after.cut m b).isEmpty (after.line - 1)) =
      (decide (1 < after.line - start) && after.isEmpty (after.line - 1)) := by
    by_cases hmore : 1 < after.line - start
    · rw [isEmpty_cut (by omega)]
    · simp [hmore]
  refine both_ok ⟨hkeeps,hline,?_⟩
  simp only [leaveItem_cut hn,ListReading.mk.injEq]
  exact ⟨trivial,rfl,hempty⟩

theorem nextMarker?_cut (h : s.Lined m b) (hn : n < m) :
    nextMarker? (s.cut m b) ordered mark n = nextMarker? s ordered mark n := by
  have hchar : ∀ e, (if ordered then numberEnd? s n else bulletEnd? s n) = some e →
      (s.cut m b).char? (e - 1) = s.char? (e - 1) := by
    intro e he
    have hbefore := h.before n hn
    have hinside : e ≤ (s.lineAt n).stop := by
      split at he
      · exact (numberEnd?_inside he).2
      · exact (bulletEnd?_inside h hn he).2
    exact char?_cut (by omega)
  rw [nextMarker?,nextMarker?,isOutdented_cut hn,isCode_cut hn,interruptsList_cut h hn,
    numberEnd?_cut h hn,bulletEnd?_cut h hn]
  cases he : (if ordered then numberEnd? s n else bulletEnd? s n) with
  | none => rfl
  | some e => simp only [hchar e he]

theorem nextMarker?_inside {e : Nat} (h : s.Lined m b) (hn : n < m)
    (he : nextMarker? s ordered mark n = some e) :
    (s.lineAt n).textStart ≤ e ∧ e ≤ (s.lineAt n).stop := by
  rw [nextMarker?] at he
  split at he
  · cases he
  split at he
  · rename_i e' he'
    split at he
    · cases he
      split at he'
      · exact numberEnd?_inside he'
      · exact bulletEnd?_inside h hn he'
    · cases he
  · cases he

theorem itemsFrom_both {fuel : Nat} (hnested : nested.IsLocal m b) (h : r.state.Bounded m b)
    (hstart : start < stop) (hstop : stop ≤ r.state.lineMax) (hline : fuel = 0 → r.state.line ≤ m)
    (hmark : (r.state.lineAt start).textStart ≤ markerEnd)
    (hmarker : markerEnd ≤ (r.state.lineAt start).stop) :
    Both (ItemFollows m b r.state) (itemsFrom nested ordered mark stop fuel start markerEnd r)
      (itemsFrom nested ordered mark stop fuel start markerEnd
        { r with state := r.state.cut m b }) := by
  induction fuel generalizing start markerEnd r with
  | zero => exact both_ok ⟨.refl _,hline rfl,rfl⟩
  | succ fuel ih =>
    rw [itemsFrom,itemsFrom]
    rcases readItem_both ordered mark hnested h hstart hstop hmark hmarker with
      ⟨e,hx,hy⟩ | ⟨r',_,hx,hy,hkeeps,hline',rfl⟩
    · rw [hx,hy]
      exact both_error e
    rw [hx,hy]
    have h' := h.keeps hkeeps
    have hmax := h.max
    have hlineMax := hkeeps.lineMax
    have hgoesOn : (r'.state.cut m b).line = r'.state.line := rfl
    simp only [hgoesOn]
    by_cases hn : stop ≤ r'.state.line
    · rw [if_pos hn,if_pos hn]
      exact both_ok ⟨hkeeps,hline',rfl⟩
    rw [if_neg hn,if_neg hn,nextMarker?_cut h'.toLined (by omega)]
    cases he : nextMarker? r'.state ordered mark r'.state.line with
    | none => exact both_ok ⟨hkeeps,hline',rfl⟩
    | some e =>
      obtain ⟨hmark',hmarker'⟩ := nextMarker?_inside h'.toLined (by omega) he
      refine (ih h' (by omega) (by omega) (fun _ => hline') hmark' hmarker').mono fun r₁ r₂ hr => ?_
      exact ⟨hkeeps.trans hr.1,hr.2⟩

end Items

theorem extends_hide {fuel i : Nat} {ts us : Array Token} {level : Int} (h : Extends ts us)
    (hi : ts.size ≤ i) : Extends ts (hideParagraphs.go level fuel i us) := by
  induction fuel generalizing i us with
  | zero => exact h
  | succ fuel ih =>
    simp only [hideParagraphs.go]
    split
    · exact h
    split
    · exact ih ((h.modify hi).modify (by omega)) (by omega)
    · exact ih h (by omega)

theorem keeps_leaveList (closing : Token) (start : Nat) (h : (s.under .list).Keeps r.state) :
    s.Keeps (leaveList s closing start r) ∧ (leaveList s closing start r).line = r.state.line := by
  have htokens : Extends s.tokens (((r.state.push closing).setMap s.tokens.size start
      r.state.line).tokens) := (h.tokens.trans (extends_push _ _)).modify (Nat.le_refl _)
  rw [leaveList]
  split
  · exact ⟨⟨h.src,h.lines,h.lineMax,h.blockIndent,h.listIndent,rfl,
      extends_hide htokens (by omega)⟩,rfl⟩
  · exact ⟨⟨h.src,h.lines,h.lineMax,h.blockIndent,h.listIndent,rfl,htokens⟩,rfl⟩

theorem leaveList_cut {closing : Token} :
    leaveList (s.cut m b) closing start { r with state := r.state.cut m b } =
      (leaveList s closing start r).cut m b := by
  simp only [leaveList]
  split <;> rfl

theorem isLocal_list (hnested : nested.IsLocal m b) : Rule.IsLocal m b (list nested) := by
  intro s start stop h hstart hstop
  have hmax := h.max
  have hn : start < m := by omega
  have hbefore := h.before start hn
  simp only [list,listAt_cut h.toLined hn,marker?_cut h.toLined hn]
  split
  · exact declined
  cases hmarker : marker? s start with
  | none => exact declined
  | some found =>
    obtain ⟨number,markerEnd⟩ := found
    obtain ⟨hge,hle⟩ := marker?_inside h.toLined hn hmarker
    simp only
    rw [char?_cut (by omega)]
    generalize (s.char? (markerEnd - 1)).getD ' ' = mark
    have hfirst : State.Bounded m b ((s.under .list).push (listOpening number mark)) :=
      h.congr rfl rfl hmax
    have hitems : Both (ItemFollows m b ((s.under .list).push (listOpening number mark)))
        (itemsFrom nested number.isSome mark stop (stop - start + 1) start markerEnd
          ⟨(s.under .list).push (listOpening number mark),true,false⟩)
        (itemsFrom nested number.isSome mark stop (stop - start + 1) start markerEnd
          ⟨((s.cut m b).under .list).push (listOpening number mark),true,false⟩) :=
      itemsFrom_both hnested hfirst hstart hstop (by simp) hge hle
    rcases hitems with ⟨e,hx,hy⟩ | ⟨r,_,hx,hy,hkeeps,hline,rfl⟩
    · rw [hx,hy]
      exact both_error e
    rw [hx,hy]
    simp only [leaveList_cut]
    have hlist : (s.under .list).Keeps r.state :=
      ⟨hkeeps.src,hkeeps.lines,hkeeps.lineMax,hkeeps.blockIndent,hkeeps.listIndent,hkeeps.parent,
        (extends_push _ _).trans hkeeps.tokens⟩
    obtain ⟨hkeeps',hline'⟩ := keeps_leaveList (listClosing number.isSome mark) start hlist
    exact both_ok (.some ⟨hkeeps',hline' ▸ hline,rfl⟩)

end Longform.Markdown.Block
