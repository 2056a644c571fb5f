import Longform.Proofs.Markdown.Block.Quote

/-! Asides look for their closing line, on the line behind their range, too. If that line is no run of
colons, looking there makes no difference. -/
namespace Longform.Markdown.Block
open State

variable {s : State} {m b n k start stop last fuel : Nat} {marker : Text} {closed : Bool}
  {nested : Nested}

section Markers

theorem skipWhile_all {p : Char → Bool} {pos : Nat} :
    ∀ i, pos ≤ i → i < s.skipWhile p fuel pos → (s.char? i).any p = true := by
  induction fuel generalizing pos with
  | zero =>
    intro i hi hlt
    rw [skipWhile] at hlt
    omega
  | succ fuel ih =>
    intro i hi hlt
    rw [skipWhile] at hlt
    split at hlt
    · rename_i hany
      by_cases hpos : i = pos
      · exact hpos ▸ hany
      · exact ih i (by omega) hlt
    · omega

theorem asideAt?_le {marksEnd : Nat} (h : asideAt? s n = some marksEnd) :
    marksEnd ≤ (s.lineAt n).stop := by
  simp only [asideAt?] at h
  split at h <;> cases h
  exact Nat.min_le_right _ _

/-- The marker of an aside is a run of three or more colons. -/
theorem marker_eq_replicate {marksEnd : Nat} (hinside : (s.lineAt n).stop ≤ s.src.size)
    (h : asideAt? s n = some marksEnd) :
    ∃ k, 3 ≤ k ∧ s.slice (s.lineAt n).textStart marksEnd = List.replicate k ':' := by
  have hle := asideAt?_le h
  simp only [asideAt?] at h
  split at h
  · cases h
  rename_i hthree
  simp only [Option.some.injEq] at h
  rw [h] at hthree
  refine ⟨marksEnd - (s.lineAt n).textStart,by omega,?_⟩
  apply List.ext_getElem?
  intro i
  rw [State.slice,Markdown.slice,Array.getElem?_toList,Array.getElem?_extract,Nat.min_eq_left (by omega),
    List.getElem?_replicate]
  split
  · have hlt : (s.lineAt n).textStart + i < s.runEnd (· = ':') (s.lineAt n).textStart := by omega
    have hrun : (s.char? ((s.lineAt n).textStart + i)).any (· = ':') = true :=
      skipWhile_all _ (Nat.le_add_right _ _) hlt
    cases hc : s.char? ((s.lineAt n).textStart + i) with
    | none =>
      rw [hc] at hrun
      cases hrun
    | some c =>
      rw [hc,Option.any_some,decide_eq_true_eq] at hrun
      rw [← hrun,← hc]
      rfl
  · rfl

end Markers

section Ends

theorem asideEnd_of_le (h : stop ≤ n) : asideEnd s marker stop fuel n = (n,false) := by
  cases fuel with
  | zero => rfl
  | succ fuel => rw [asideEnd,if_pos h]

/-- An aside ends in its range or on the line behind it. -/
theorem asideEnd_inside (hn : n ≤ stop) (h : asideEnd s marker stop fuel n = (last,closed)) :
    n ≤ last ∧ last ≤ stop ∧ (closed = true → Text.trim (s.lineText last) = marker) := by
  induction fuel generalizing n with
  | zero =>
    cases h
    exact ⟨Nat.le_refl _,hn,fun h => nomatch h⟩
  | succ fuel ih =>
    simp only [asideEnd] at h
    split at h
    · cases h
      exact ⟨Nat.le_refl _,hn,fun h => nomatch h⟩
    split at h
    · cases h
      exact ⟨Nat.le_succ _,by omega,fun h => nomatch h⟩
    split at h
    · rename_i hmarker
      cases h
      exact ⟨Nat.le_succ _,by omega,fun _ => hmarker⟩
    · obtain ⟨hge,hle,hclosed⟩ := ih (by omega) h
      exact ⟨Nat.le_of_succ_le hge,hle,hclosed⟩

theorem lt_asideEnd (hn : n < stop) (h : asideEnd s marker stop (stop - n) n = (last,closed)) :
    n < last := by
  rw [show stop - n = (stop - n - 1) + 1 by omega] at h
  simp only [asideEnd] at h
  rw [if_neg (by omega)] at h
  split at h
  · cases h
    exact Nat.lt_succ_self n
  split at h
  · cases h
    exact Nat.lt_succ_self n
  · exact (asideEnd_inside hn h).1

theorem asideEnd_cut (h : s.Lined m b) (hquiet : s.IsQuiet m) (hstop : stop ≤ m) (hk : 3 ≤ k) :
    asideEnd (s.cut m b) (List.replicate k ':') stop fuel n =
      asideEnd s (List.replicate k ':') stop fuel n := by
  induction fuel generalizing n with
  | zero => rfl
  | succ fuel ih =>
    simp only [asideEnd]
    by_cases hn : stop ≤ n
    · rw [if_pos hn,if_pos hn]
    rw [if_neg hn,if_neg hn]
    by_cases hnext : n + 1 < m
    · rw [isEmpty_cut hnext,isOutdented_cut hnext,lineText_cut hnext h,ih]
    · -- Behind the range there is no line any more, or one that does not close the aside.
      obtain rfl : m = n + 1 := by omega
      have hgone : (s.cut (n + 1) b).lineAt (n + 1) = ⟨0,0,0,0,0⟩ := by
        rw [lineAt,Array.getD_eq_getD_getElem?,getElem?_cut,if_neg (Nat.lt_irrefl _)]
        rfl
      have hempty : (s.cut (n + 1) b).isEmpty (n + 1) = true := by
        rw [State.isEmpty,hgone]
        rfl
      rw [hempty,if_neg (isQuiet_of_isEmpty hempty k hk),if_neg (hquiet k hk)]
      rw [asideEnd_of_le hstop,asideEnd_of_le hstop]
      simp

end Ends

section Blocks

variable {inner : State} {info : Text} {next : Nat}

theorem bounded_enterAside (h : s.Lined m b) (hquiet : s.IsQuiet m) (hlast : last ≤ m) :
    (enterAside s marker info start last).Bounded m b :=
  ⟨h.congr rfl rfl,hlast,hquiet.congr rfl rfl⟩

theorem keeps_leaveAside (h : (enterAside s marker info start last).Keeps inner) :
    s.Keeps (leaveAside s marker next inner) :=
  ⟨h.src,h.lines,rfl,h.blockIndent,h.listIndent,rfl,
    ((extends_push _ _).trans h.tokens).trans (extends_push _ _)⟩

/-- The range of an aside stands in its opening. -/
theorem map_leaveAside (h : (enterAside s marker info start last).Keeps inner) :
    (leaveAside s marker next inner).tokens[s.tokens.size]?.bind Token.map =
      some ((start : Int),(last : Int)) := by
  have hopening := h.tokens s.tokens.size (by simp [enterAside,under,push])
  have hbehind := h.tokens.size_le
  simp only [enterAside,under,push,Array.size_push] at hbehind
  simp only [leaveAside,push,Array.getElem?_push]
  rw [if_neg (by omega),hopening]
  simp [enterAside,under,push]

end Blocks

/-- What is read of an aside: its blocks from the next line up to the line where it ends. -/
theorem aside_eq_some {after : State} (h : aside nested s start stop = .ok (some after)) :
    ∃ marksEnd last closed inner, asideAt? s start = some marksEnd ∧
      asideEnd s (s.slice (s.lineAt start).textStart marksEnd) stop (stop - start) start =
        (last,closed) ∧
      nested (enterAside s (s.slice (s.lineAt start).textStart marksEnd)
        (Text.trim (s.slice marksEnd (s.lineAt start).stop)) start last) (start + 1) last = .ok inner ∧
      after = leaveAside s (s.slice (s.lineAt start).textStart marksEnd)
        (if closed then last + 1 else last) inner := by
  simp only [aside] at h
  split at h
  · cases h
  rename_i marksEnd hmarks
  split at h
  · cases h
  rename_i inner hinner
  cases h
  exact ⟨marksEnd,_,_,inner,hmarks,rfl,hinner,rfl⟩

/-- An aside in a state comes to the same in the state cut off behind line `m`, if that line does not
close it. -/
theorem aside_both (hnested : nested.IsLocal m b) (h : s.Lined m b) (hquiet : s.IsQuiet m)
    (hstart : start < stop) (hstop : stop ≤ m) :
    Both (Option.Rel (Follows m b s)) (aside nested s start stop)
      (aside nested (s.cut m b) start stop) := by
  have hn : start < m := by omega
  have hbefore := h.before start hn
  simp only [aside,asideAt?_cut h hn,lineAt_cut hn]
  cases hmarks : asideAt? s start with
  | none => exact declined
  | some marksEnd =>
    have hle := asideAt?_le hmarks
    obtain ⟨k,hk,hmarker⟩ := marker_eq_replicate (h.inside start hn) hmarks
    simp only
    rw [slice_cut (by omega),slice_cut (by omega),hmarker,asideEnd_cut h hquiet hstop hk]
    rcases hend : asideEnd s (List.replicate k ':') stop (stop - start) start with ⟨last,closed⟩
    obtain ⟨-,hlast,hclosed⟩ := asideEnd_inside (Nat.le_of_lt hstart) hend
    have hnext : (if closed then last + 1 else last) ≤ m := by
      cases closed with
      | false => exact Nat.le_trans hlast hstop
      | true =>
        have hne : last ≠ m := fun he => hquiet k hk (he ▸ hclosed rfl)
        simp only [if_true]
        omega
    have hcut : ∀ info, enterAside (s.cut m b) (List.replicate k ':') info start last =
        (enterAside s (List.replicate k ':') info start last).cut m b := fun info => rfl
    simp only [hcut]
    rcases hnested.both _ (start + 1) last
        (bounded_enterAside h hquiet (Nat.le_trans hlast hstop)) (Nat.le_refl _) with
      ⟨e,hx,hy⟩ | ⟨after,_,hx,hy,hkeeps,-,rfl⟩
    · rw [hx,hy]
      exact both_error e
    rw [hx,hy]
    exact both_ok (.some ⟨keeps_leaveAside hkeeps,hnext,rfl⟩)

end Longform.Markdown.Block
