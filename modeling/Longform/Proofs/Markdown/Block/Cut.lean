import Longform.Markdown.Block.State

/-! A state cut off behind its first lines. What is asked about those lines does not notice. -/
namespace Longform.Markdown.Block

/-- A line whose beginning has been moved inside it. -/
def Line.IsMoved (l l' : Line) : Prop :=
  l'.stop = l.stop ∧ l.start ≤ l'.start ∧ l'.textStart ≤ l'.stop

namespace State

/-- The state without the lines from `m` on and the characters from `b` on. -/
def cut (m b : Nat) (s : State) : State :=
  { s with src := s.src.extract 0 b, lines := s.lines.extract 0 m }

/-- The first `m` lines follow one another, each up to its line break, and end before position `b`. -/
structure Lined (m b : Nat) (s : State) : Prop where
  size : m ≤ s.lines.size
  fits : ∀ n < m, (s.lineAt n).textStart ≤ (s.lineAt n).stop
  inside : ∀ n < m, (s.lineAt n).stop ≤ s.src.size
  before : ∀ n < m, (s.lineAt n).stop < b
  breaks : ∀ n < m, ∀ c, s.char? (s.lineAt n).stop = some c → c = '\n'
  apart : ∀ n, n + 1 < m → (s.lineAt n).stop < (s.lineAt (n + 1)).start

variable {s t : State} {m b n k pos stop fuel : Nat} {l l' : Line} {p : Char → Bool}

section Changes

theorem pushAll_cut (ts : List Token) : (s.cut m b).pushAll ts = (s.pushAll ts).cut m b := by
  induction ts generalizing s with
  | nil => rfl
  | cons tk ts ih => exact ih (s:=s.push tk)

theorem getElem?_setLine : (s.setLine k l).lines[n]? =
    if k = n then (if k < s.lines.size then some l else none) else s.lines[n]? :=
  Array.getElem?_setIfInBounds

theorem getElem?_cut : (s.cut m b).lines[n]? = if n < m then s.lines[n]? else none := by
  rw [cut,Array.getElem?_extract,Nat.zero_add,Nat.sub_zero]
  by_cases hn : n < m
  · by_cases hsize : n < s.lines.size
    · rw [if_pos (by omega),if_pos hn]
    · rw [if_neg (by omega),if_pos hn,Array.getElem?_eq_none (by omega)]
  · rw [if_neg (by omega),if_neg hn]

theorem setLine_cut (h : k < m → l = l') : (s.cut m b).setLine k l = (s.setLine k l').cut m b := by
  have hlines : ((s.cut m b).setLine k l).lines = ((s.setLine k l').cut m b).lines := by
    apply Array.ext_getElem?
    intro n
    have hsize : (s.cut m b).lines.size = min m s.lines.size := by simp [cut]
    rw [getElem?_setLine,getElem?_cut,getElem?_cut,getElem?_setLine,hsize]
    by_cases hkn : k = n
    · subst hkn
      by_cases hk : k < m
      · have hmin : k < min m s.lines.size ↔ k < s.lines.size := by omega
        simp [hk,h hk,hmin]
      · have hmin : ¬k < min m s.lines.size := by omega
        rw [if_pos rfl,if_neg hmin,if_neg hk]
    · simp [hkn]
  change { s with src := _, lines := _ } = ({ s with src := _, lines := _ } : State)
  exact congrArg (fun ls => { s with src := s.src.extract 0 b, lines := ls }) hlines

theorem lineAt_setLine (hk : k < s.lines.size) :
    (s.setLine k l).lineAt n = if k = n then l else s.lineAt n := by
  rw [lineAt,Array.getD_eq_getD_getElem?,getElem?_setLine,if_pos hk]
  split
  · rfl
  · rw [lineAt,Array.getD_eq_getD_getElem?]

theorem lineAt_congr (h : t.lines = s.lines) (n : Nat) : t.lineAt n = s.lineAt n := by
  rw [lineAt,lineAt,h]

theorem lineAt_cut (hn : n < m) : (s.cut m b).lineAt n = s.lineAt n := by
  rw [lineAt,lineAt,Array.getD_eq_getD_getElem?,Array.getD_eq_getD_getElem?,getElem?_cut,if_pos hn]

theorem char?_cut (hpos : pos < b) : (s.cut m b).char? pos = s.char? pos := by
  rw [char?,char?,cut,Array.getElem?_extract,Nat.zero_add,Nat.sub_zero]
  by_cases hsize : pos < s.src.size
  · rw [if_pos (by omega)]
  · rw [if_neg (by omega),Array.getElem?_eq_none (by omega)]

theorem slice_cut (hstop : stop ≤ b) : (s.cut m b).slice pos stop = s.slice pos stop := by
  rw [slice,slice,Markdown.slice,Markdown.slice,cut,Array.extract_extract,Nat.zero_add,Nat.zero_add,
    Nat.min_eq_left hstop]

end Changes

section Lined

theorem Lined.moved (h : s.Lined m b) (hsrc : t.src = s.src) (hsize : t.lines.size = s.lines.size)
    (hlines : ∀ n < m, (s.lineAt n).IsMoved (t.lineAt n)) : t.Lined m b where
  size := hsize ▸ h.size
  fits n hn := (hlines n hn).2.2
  inside n hn := by
    rw [(hlines n hn).1,hsrc]
    exact h.inside n hn
  before n hn := (hlines n hn).1 ▸ h.before n hn
  breaks n hn := by
    rw [(hlines n hn).1,char?,hsrc]
    exact h.breaks n hn
  apart n hn := by
    have := (hlines (n + 1) hn).2.1
    have := h.apart n hn
    rw [(hlines n (by omega)).1]
    omega

theorem Lined.congr (h : s.Lined m b) (hsrc : t.src = s.src) (hlines : t.lines = s.lines) :
    t.Lined m b := by
  refine h.moved hsrc (by rw [hlines]) fun n hn => ?_
  rw [lineAt_congr hlines]
  exact ⟨rfl,Nat.le_refl _,h.fits n hn⟩

theorem Lined.setLine (h : s.Lined m b) (hk : k < m) (hl : (s.lineAt k).IsMoved l) :
    (s.setLine k l).Lined m b := by
  have hsize : (s.setLine k l).lines.size = s.lines.size := Array.size_setIfInBounds
  refine h.moved rfl hsize fun n hn => ?_
  rw [lineAt_setLine (Nat.lt_of_lt_of_le hk h.size)]
  split
  · rename_i hkn
    exact hkn ▸ hl
  · exact ⟨rfl,Nat.le_refl _,h.fits n hn⟩

/-- Only the first lines matter, and the characters in front of position `b`. -/
theorem Lined.agree (h : s.Lined m b) (hlines : ∀ n < m, t.lineAt n = s.lineAt n)
    (hchars : ∀ pos < b, t.char? pos = s.char? pos) (hsize : m ≤ t.lines.size)
    (hsrc : min b s.src.size ≤ t.src.size) : t.Lined m b := by
  refine ⟨hsize,fun n hn => ?_,fun n hn => ?_,fun n hn => ?_,fun n hn => ?_,fun n hn => ?_⟩
  · exact hlines n hn ▸ h.fits n hn
  · have := h.inside n hn
    have := h.before n hn
    rw [hlines n hn]
    omega
  · exact hlines n hn ▸ h.before n hn
  · rw [hlines n hn,hchars _ (h.before n hn)]
    exact h.breaks n hn
  · rw [hlines n (by omega),hlines (n + 1) hn]
    exact h.apart n hn

theorem lined_cut_iff : (s.cut m b).Lined m b ↔ s.Lined m b := by
  have hlines : (s.cut m b).lines.size = min m s.lines.size := by simp [cut]
  have hsrc : (s.cut m b).src.size = min b s.src.size := by simp [cut]
  constructor
  · intro h
    have hsize := h.size
    exact h.agree (fun n hn => (lineAt_cut hn).symm) (fun pos hpos => (char?_cut hpos).symm)
      (by omega) (by omega)
  · intro h
    have hsize := h.size
    exact h.agree (fun n hn => lineAt_cut hn) (fun pos hpos => char?_cut hpos) (by omega) (by omega)

end Lined

section Lines

variable (hn : n < m)

include hn

theorem isEmpty_cut : (s.cut m b).isEmpty n = s.isEmpty n := by
  rw [isEmpty,isEmpty,lineAt_cut hn]

theorem indent_cut : (s.cut m b).indent n = s.indent n := by
  rw [indent,indent,lineAt_cut hn]

theorem isCode_cut : (s.cut m b).isCode n = s.isCode n := by
  rw [isCode,isCode,indent_cut hn]
  rfl

theorem isOutdented_cut : (s.cut m b).isOutdented n = s.isOutdented n := by
  rw [isOutdented,isOutdented,indent_cut hn]
  rfl

theorem lineText_cut (h : s.Lined m b) : (s.cut m b).lineText n = s.lineText n := by
  rw [lineText,lineText,lineAt_cut hn,slice_cut (Nat.le_of_lt (h.before n hn))]

end Lines

section Positions

theorem skipWhile_le {q : Nat} (hq : (s.char? q).any p = false) (hpos : pos ≤ q) :
    s.skipWhile p fuel pos ≤ q := by
  induction fuel generalizing pos with
  | zero => exact hpos
  | succ fuel ih =>
    rw [skipWhile]
    split
    · rename_i hany
      apply ih
      have hne : pos ≠ q := fun h => by rw [h,hq] at hany; cases hany
      omega
    · exact hpos

/-- A search that ends at `q` needs the characters up to there and as much fuel. -/
theorem skipWhile_cut {q fuel' : Nat} (hq : (s.char? q).any p = false) (hb : q < b) (hpos : pos ≤ q)
    (hf : q ≤ pos + fuel) (hf' : q ≤ pos + fuel') :
    (s.cut m b).skipWhile p fuel' pos = s.skipWhile p fuel pos := by
  induction fuel generalizing pos fuel' with
  | zero =>
    obtain rfl : pos = q := by omega
    cases fuel' with
    | zero => rfl
    | succ fuel' =>
      have hnot : ((s.cut m b).char? pos).any p = false := (char?_cut hb).symm ▸ hq
      simp [skipWhile,hnot]
  | succ fuel ih =>
    cases fuel' with
    | zero =>
      obtain rfl : pos = q := by omega
      rw [skipWhile,skipWhile,hq]
      rfl
    | succ fuel' =>
      rw [skipWhile,skipWhile,char?_cut (by omega)]
      split
      · rename_i hany
        have hne : pos ≠ q := fun h => by rw [h,hq] at hany; cases hany
        exact ih (by omega) (by omega) (by omega)
      · rfl

variable (h : s.Lined m b) (hn : n < m)

include h hn

theorem Lined.any_stop (hp : p '\n' = false) : (s.char? (s.lineAt n).stop).any p = false := by
  rw [Option.any_eq_false]
  intro c hc
  rw [h.breaks n hn c hc,hp]

theorem Lined.runEnd_le (hp : p '\n' = false) (hpos : pos ≤ (s.lineAt n).stop) :
    s.runEnd p pos ≤ (s.lineAt n).stop := skipWhile_le (h.any_stop hn hp) hpos

theorem Lined.runEnd_cut (hp : p '\n' = false) (hpos : pos ≤ (s.lineAt n).stop) :
    (s.cut m b).runEnd p pos = s.runEnd p pos := by
  have hinside := h.inside n hn
  have hbefore := h.before n hn
  have hsrc : (s.cut m b).src.size = min b s.src.size := by simp [cut]
  apply skipWhile_cut (h.any_stop hn hp) hbefore hpos
  · omega
  · omega

theorem Lined.skipGaps_cut (hpos : pos ≤ (s.lineAt n).stop) :
    (s.cut m b).skipGaps pos = s.skipGaps pos := h.runEnd_cut hn rfl hpos

/-- The text of a line begins before its end when there is something other than a line break. -/
theorem Lined.textStart_lt {c : Char} (hc : s.char? (s.lineAt n).textStart = some c) (hne : c ≠ '\n') :
    (s.lineAt n).textStart < (s.lineAt n).stop := by
  refine Nat.lt_of_le_of_ne (h.fits n hn) fun he => hne ?_
  rw [he] at hc
  exact h.breaks n hn c hc

theorem Lined.char?_textStart :
    (s.cut m b).char? (s.lineAt n).textStart = s.char? (s.lineAt n).textStart :=
  char?_cut (Nat.lt_of_le_of_lt (h.fits n hn) (h.before n hn))

end Positions

section Texts

theorem takeIndent_cut {indent width : Int} (hstop : stop ≤ b) :
    (s.cut m b).takeIndent l indent stop fuel pos width = s.takeIndent l indent stop fuel pos width := by
  induction fuel generalizing pos width with
  | zero => rfl
  | succ fuel ih =>
    rw [takeIndent,takeIndent]
    by_cases hpos : pos < stop
    · rw [char?_cut (by omega)]
      simp only [ih]
    · simp [Nat.le_of_not_lt hpos]

variable (h : s.Lined m b) {indent : Int} {lineBreak : Bool}

include h

theorem Lined.lineFrom_cut (hn : n < m) :
    (s.cut m b).lineFrom n indent lineBreak = s.lineFrom n indent lineBreak := by
  have hbefore := h.before n hn
  have hstop : (if lineBreak then (s.lineAt n).stop + 1 else (s.lineAt n).stop) ≤ b := by
    split <;> omega
  simp only [lineFrom,lineAt_cut hn,takeIndent_cut hstop,slice_cut hstop]

theorem Lined.linesFrom_cut (hstop : stop ≤ m) :
    (s.cut m b).linesFrom n stop indent lineBreak = s.linesFrom n stop indent lineBreak := by
  rw [linesFrom,linesFrom]
  refine congrArg List.flatten (List.map_congr_left fun i hi => h.lineFrom_cut ?_)
  rw [List.mem_range] at hi
  omega

end Texts

section Empty

theorem skipEmpty_le (hn : n ≤ s.lineMax) : s.skipEmpty fuel n ≤ s.lineMax := by
  induction fuel generalizing n with
  | zero => exact hn
  | succ fuel ih =>
    rw [skipEmpty]
    split
    · rename_i hempty
      simp only [Bool.and_eq_true,decide_eq_true_eq] at hempty
      exact ih hempty.1
    · exact hn

theorem skipEmpty_cut (hmax : s.lineMax ≤ m) :
    (s.cut m b).skipEmpty fuel n = s.skipEmpty fuel n := by
  induction fuel generalizing n with
  | zero => rfl
  | succ fuel ih =>
    have hcut : (s.cut m b).lineMax = s.lineMax := rfl
    rw [skipEmpty,skipEmpty,ih,hcut]
    by_cases hn : n < s.lineMax
    · rw [isEmpty_cut (by omega)]
    · simp [hn]

end Empty

end State
end Longform.Markdown.Block
