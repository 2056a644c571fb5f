import Longform.Proofs.Markdown.Block.Local

/-! Definitions of labels read lines as they need them, and stop with the line they need last. Their
fuel is counted from the whole source, and there is always enough of it. -/
namespace Longform.Markdown.Block
open State

/-- The text has been taken from lines up to `next`, and is no longer than they are. -/
structure Growing.IsWithin (m : Nat) (s : State) (g : Growing) : Prop where
  pos : 0 < g.next
  le : g.next ≤ m
  size : g.chars.size ≤ (s.lineAt (g.next - 1)).stop + 1

variable {s : State} {m b n pos fuel fuel' : Nat} {g g' : Growing}

theorem State.Lined.le_stop (h : s.Lined m b) (hn : n < m) : n ≤ (s.lineAt n).stop := by
  induction n with
  | zero => exact Nat.zero_le _
  | succ n ih =>
    have hbelow := ih (by omega)
    have hapart := h.apart n hn
    have hfits := h.fits (n + 1) hn
    rw [Line.textStart] at hfits
    omega

theorem grow?_none (hle : s.lineMax ≤ g.next) : g.grow? s = .ok none := by simp [Growing.grow?,hle]

/-- The characters of a line with its break. -/
theorem State.Lined.extract_cut (h : s.Lined m b) (hn : n < m) :
    (s.cut m b).src.extract (s.lineAt n).textStart
        (min ((s.lineAt n).stop + 1) (s.cut m b).src.size) =
      s.src.extract (s.lineAt n).textStart (min ((s.lineAt n).stop + 1) s.src.size) := by
  have hbefore := h.before n hn
  have hsrc : (s.cut m b).src = s.src.extract 0 b := rfl
  have hsize : (s.src.extract 0 b).size = min b s.src.size := by simp
  rw [hsrc,Array.extract_extract,hsize]
  congr 1 <;> omega

section Lines

variable (h : s.Lined m b) (hmax : s.lineMax ≤ m)

include h hmax

theorem grow?_cut : g.grow? (s.cut m b) = g.grow? s := by
  have hlineMax : (s.cut m b).lineMax = s.lineMax := rfl
  by_cases hn : g.next < s.lineMax
  · have hn' : g.next < m := by omega
    have hasks : interruptsText ((s.cut m b).under .definition) g.next s.lineMax =
        interruptsText (s.under .definition) g.next s.lineMax :=
      interruptsText_cut (s:=s.under .definition) (h.congr rfl rfl) hn' hmax
    simp only [Growing.grow?,hlineMax,isEmpty_cut hn',lineAt_cut hn',h.extract_cut hn',isCode_cut hn',
      indent_cut hn',hasks]
  · simp [Growing.grow?,hlineMax,Nat.le_of_not_lt hn]

theorem growOrStay_cut : g.growOrStay (s.cut m b) = g.growOrStay s := by
  rw [Growing.growOrStay,Growing.growOrStay,grow?_cut h hmax]

theorem grow?_within (hg : g.IsWithin m s) (hgrow : g.grow? s = .ok (some g')) :
    g'.IsWithin m s ∧ g'.next = g.next + 1 := by
  have hgrown : g.next < s.lineMax ∧ g' = ⟨g.chars ++ s.src.extract (s.lineAt g.next).textStart
      (min ((s.lineAt g.next).stop + 1) s.src.size),g.next + 1⟩ := by
    simp only [Growing.grow?] at hgrow
    split at hgrow
    · cases hgrow
    rename_i hnot
    simp only [Bool.or_eq_true,decide_eq_true_eq,not_or,Nat.not_le] at hnot
    refine ⟨hnot.1,?_⟩
    split at hgrow
    · cases hgrow
      rfl
    split at hgrow <;> cases hgrow
    rfl
  obtain ⟨hn,rfl⟩ := hgrown
  have hn' : g.next < m := by omega
  have hfits := h.fits _ hn'
  have hapart := h.apart (g.next - 1)
  rw [Nat.sub_add_cancel hg.pos] at hapart
  have hbehind := hapart hn'
  have hsize := hg.size
  rw [Line.textStart] at hfits
  refine ⟨⟨Nat.succ_pos _,hn',?_⟩,rfl⟩
  simp only [Array.size_append,Array.size_extract,Nat.add_sub_cancel,Line.textStart]
  omega

theorem growOrStay_within (hg : g.IsWithin m s) (hgrow : g.growOrStay s = .ok g') :
    g'.IsWithin m s := by
  rw [Growing.growOrStay] at hgrow
  cases hnext : g.grow? s with
  | error e =>
    rw [hnext] at hgrow
    cases hgrow
  | ok o =>
    rw [hnext] at hgrow
    cases o with
    | none =>
      cases hgrow
      exact hg
    | some grown =>
      cases hgrow
      exact (grow?_within h hmax hg hnext).1

omit hmax in
/-- Characters beyond the bound of the source are not there. -/
theorem getElem?_of_within (hg : g.IsWithin m s) (hpos : min b s.src.size + 2 ≤ pos) :
    g.chars[pos]? = none := by
  have hlast : g.next - 1 < m := by
    have := hg.pos
    have := hg.le
    omega
  have hsize := hg.size
  have hbefore := h.before _ hlast
  have hinside := h.inside _ hlast
  exact Array.getElem?_eq_none (by omega)

end Lines

section Searches

variable (h : s.Lined m b) (hmax : s.lineMax ≤ m)

include h hmax

theorem definedLabelEnd_cut (hg : g.IsWithin m s) (hf : min b s.src.size + 2 ≤ fuel + pos)
    (hf' : min b s.src.size + 2 ≤ fuel' + pos) :
    definedLabelEnd (s.cut m b) fuel' g pos = definedLabelEnd s fuel g pos := by
  induction fuel generalizing g pos fuel' with
  | zero =>
    have hnone : g.chars[pos]? = none := getElem?_of_within h hg (by omega)
    cases fuel' with
    | zero => rfl
    | succ fuel' =>
      rw [definedLabelEnd,definedLabelEnd,hnone]
  | succ fuel ih =>
    cases fuel' with
    | zero =>
      have hnone : g.chars[pos]? = none := getElem?_of_within h hg (by omega)
      simp only [definedLabelEnd,hnone]
    | succ fuel' =>
      rw [definedLabelEnd,definedLabelEnd]
      split
      · rfl
      · rfl
      · rfl
      · rw [growOrStay_cut h hmax]
        cases hgrow : g.growOrStay s with
        | error e => rfl
        | ok g' => exact ih (growOrStay_within h hmax hg hgrow) (by omega) (by omega)
      · rw [growOrStay_cut h hmax]
        split
        · cases hgrow : g.growOrStay s with
          | error e => rfl
          | ok g' => exact ih (growOrStay_within h hmax hg hgrow) (by omega) (by omega)
        · exact ih hg (by omega) (by omega)
      · exact ih hg (by omega) (by omega)

theorem definedLabelEnd_within {o : Option Nat} (hg : g.IsWithin m s)
    (hend : definedLabelEnd s fuel g pos = .ok (o,g')) : g'.IsWithin m s := by
  induction fuel generalizing g pos with
  | zero =>
    cases hend
    exact hg
  | succ fuel ih =>
    rw [definedLabelEnd] at hend
    split at hend
    · cases hend
      exact hg
    · cases hend
      exact hg
    · cases hend
      exact hg
    · split at hend
      · cases hend
      · exact ih (growOrStay_within h hmax hg ‹_›) hend
    · split at hend
      · split at hend
        · cases hend
        · exact ih (growOrStay_within h hmax hg ‹_›) hend
      · exact ih hg hend
    · exact ih hg hend

theorem skipGrowing_cut (hg : g.IsWithin m s) (hf : min b s.src.size + 2 ≤ fuel + pos)
    (hf' : min b s.src.size + 2 ≤ fuel' + pos) :
    skipGrowing (s.cut m b) fuel' g pos = skipGrowing s fuel g pos := by
  induction fuel generalizing g pos fuel' with
  | zero =>
    have hnone : g.chars[pos]? = none := getElem?_of_within h hg (by omega)
    cases fuel' with
    | zero => rfl
    | succ fuel' =>
      rw [skipGrowing,skipGrowing,hnone]
  | succ fuel ih =>
    cases fuel' with
    | zero =>
      have hnone : g.chars[pos]? = none := getElem?_of_within h hg (by omega)
      simp only [skipGrowing,hnone]
    | succ fuel' =>
      rw [skipGrowing,skipGrowing]
      split
      · rw [growOrStay_cut h hmax]
        cases hgrow : g.growOrStay s with
        | error e => rfl
        | ok g' => exact ih (growOrStay_within h hmax hg hgrow) (by omega) (by omega)
      · split
        · exact ih hg (by omega) (by omega)
        · rfl
      · rfl

theorem skipGrowing_within {stop : Nat} (hg : g.IsWithin m s)
    (hskip : skipGrowing s fuel g pos = .ok (stop,g')) : g'.IsWithin m s := by
  induction fuel generalizing g pos with
  | zero =>
    cases hskip
    exact hg
  | succ fuel ih =>
    rw [skipGrowing] at hskip
    split at hskip
    · split at hskip
      · cases hskip
      · exact ih (growOrStay_within h hmax hg ‹_›) hskip
    · split at hskip
      · exact ih hg hskip
      · cases hskip
        exact hg
    · cases hskip
      exact hg

/-- A title takes a line at a time, so lines are what its fuel has to count. -/
theorem growingTitle_cut {t : Title} (hg : g.IsWithin m s) (hf : s.lineMax ≤ fuel + g.next)
    (hf' : s.lineMax ≤ fuel' + g.next) :
    growingTitle (s.cut m b) fuel' g pos t = growingTitle s fuel g pos t := by
  induction fuel generalizing g pos t fuel' with
  | zero =>
    cases t with
    | unclosed soFar mark =>
      cases fuel' with
      | zero => rfl
      | succ fuel' => simp only [growingTitle,grow?_cut h hmax,grow?_none (Nat.zero_add g.next ▸ hf)]
    | absent => cases fuel' <;> rfl
    | done part => cases fuel' <;> rfl
  | succ fuel ih =>
    cases t with
    | unclosed soFar mark =>
      cases fuel' with
      | zero => simp only [growingTitle,grow?_none (Nat.zero_add g.next ▸ hf')]
      | succ fuel' =>
        rw [growingTitle,growingTitle,grow?_cut h hmax]
        cases hgrow : g.grow? s with
        | error e => rfl
        | ok o =>
          cases o with
          | none => rfl
          | some g' =>
            obtain ⟨hg',hnext⟩ := grow?_within h hmax hg hgrow
            exact ih hg' (by omega) (by omega)
    | absent => cases fuel' <;> rfl
    | done part => cases fuel' <;> rfl

theorem growingTitle_within {t t' : Title} {stop : Nat} (hg : g.IsWithin m s)
    (htitle : growingTitle s fuel g pos t = .ok (t',stop,g')) : g'.IsWithin m s := by
  induction fuel generalizing g pos t with
  | zero =>
    cases htitle
    exact hg
  | succ fuel ih =>
    unfold growingTitle at htitle
    split at htitle
    · split at htitle
      · cases htitle
      · cases htitle
        exact hg
      · exact ih (grow?_within h hmax hg ‹_›).1 htitle
    · cases htitle
      exact hg

end Searches

section Definitions

variable (h : s.Lined m b) (hmax : s.lineMax ≤ m)

include h hmax

theorem readDefined_cut {labelEnd : Nat} (hg : g.IsWithin m s) (hf : min b s.src.size + 2 ≤ fuel)
    (hf' : min b s.src.size + 2 ≤ fuel') :
    readDefined (s.cut m b) fuel' g labelEnd = readDefined s fuel g labelEnd := by
  have hlines : s.lineMax ≤ min b s.src.size + 1 := by
    by_cases hm : m = 0
    · omega
    · have hlast : m - 1 < m := by omega
      have := h.le_stop hlast
      have := h.before _ hlast
      have := h.inside _ hlast
      omega
  have hskips : ∀ g pos, g.IsWithin m s →
      skipGrowing (s.cut m b) fuel' g pos = skipGrowing s fuel g pos :=
    fun g pos hg => skipGrowing_cut h hmax hg (by omega) (by omega)
  have htitles : ∀ g pos t, g.IsWithin m s →
      growingTitle (s.cut m b) fuel' g pos t = growingTitle s fuel g pos t :=
    fun g pos t hg => growingTitle_cut h hmax hg (by omega) (by omega)
  simp only [readDefined]
  rw [hskips _ _ hg]
  apply bind_congr_ok
  rintro ⟨pos,g₁⟩ hskip
  have hg₁ := skipGrowing_within h hmax hg hskip
  simp only
  split
  · rfl
  apply bind_congr_ok
  intro href _
  split
  · rfl
  rw [hskips _ _ hg₁]
  apply bind_congr_ok
  rintro ⟨titleStart,g₂⟩ hskip'
  have hg₂ := skipGrowing_within h hmax hg₁ hskip'
  simp only
  rw [htitles _ _ _ hg₂]

theorem readDefined_next {labelEnd : Nat} {d : Defined} (hg : g.IsWithin m s)
    (hread : readDefined s fuel g labelEnd = .ok (some d)) : d.next ≤ m := by
  obtain ⟨⟨pos,g₁⟩,hskip,hread⟩ := bind_eq_ok_iff.mp hread
  have hg₁ := skipGrowing_within h hmax hg hskip
  simp only at hread
  split at hread
  · cases hread
  obtain ⟨href,-,hread⟩ := bind_eq_ok_iff.mp hread
  split at hread
  · cases hread
  obtain ⟨⟨titleStart,g₂⟩,hskip',hread⟩ := bind_eq_ok_iff.mp hread
  have hg₂ := skipGrowing_within h hmax hg₁ hskip'
  obtain ⟨⟨t,pos',g₃⟩,htitle,hread⟩ := bind_eq_ok_iff.mp hread
  have hg₃ := growingTitle_within h hmax hg₂ htitle
  simp only at hread
  have hplain : ∀ (o : Option Nat) (x : Text × Nat), o.map (fun _ => ([],g₁.next)) = some x → x.2 ≤ m := by
    intro o x hx
    obtain ⟨a,-,rfl⟩ := Option.map_eq_some_iff.mp hx
    exact hg₁.le
  split at hread
  · cases hread
  · rename_i title next hfound
    split at hread
    · cases hread
    cases hread
    split at hfound
    · split at hfound
      · split at hfound
        · cases hfound
          exact hg₃.le
        · split at hfound
          · cases hfound
          · exact hplain _ _ hfound
      · exact hplain _ _ hfound
    · exact hplain _ _ hfound

end Definitions

/-- Definitions read no line that they may not read. -/
theorem isLocal_definition : Rule.IsLocal m b definition := by
  intro s start stop h hstart hstop
  have hmax := h.max
  have hlined := h.toLined
  have hn : start < m := by omega
  have hbefore := h.before start hn
  have hinside := h.inside start hn
  have hsize : (s.cut m b).src.size = min b s.src.size := by simp [cut]
  have hg : Growing.IsWithin m s ⟨s.src.extract (s.lineAt start).textStart
      (min ((s.lineAt start).stop + 1) s.src.size),start + 1⟩ := by
    refine ⟨Nat.succ_pos _,hn,?_⟩
    simp only [Array.size_extract,Nat.add_sub_cancel]
    omega
  have hlabel : ∀ g, g.IsWithin m s → definedLabelEnd (s.cut m b) ((s.cut m b).src.size + 2) g 1 =
      definedLabelEnd s (s.src.size + 2) g 1 :=
    fun g hg => definedLabelEnd_cut hlined hmax hg (by omega) (by omega)
  have hdefined : ∀ g e, g.IsWithin m s → readDefined (s.cut m b) ((s.cut m b).src.size + 2) g e =
      readDefined s (s.src.size + 2) g e :=
    fun g e hg => readDefined_cut hlined hmax hg (by omega) (by omega)
  simp only [definition,isCode_cut hn,lineAt_cut hn,hlined.char?_textStart hn,hlined.extract_cut hn]
  split
  · exact declined
  rw [hlabel _ hg]
  rcases hend : definedLabelEnd s (s.src.size + 2) _ 1 with e | ⟨_ | labelEnd,g⟩
  · exact both_error e
  · exact declined
  have hg' := definedLabelEnd_within hlined hmax hg hend
  simp only [bind,Except.bind]
  split
  · exact declined
  rw [hdefined _ _ hg']
  rcases hread : readDefined s (s.src.size + 2) g labelEnd with e | _ | d
  · exact both_error e
  · exact declined
  · exact both_ok (.some ⟨⟨rfl,rfl,rfl,rfl,rfl,rfl,.refl _⟩,readDefined_next hlined hmax hg' hread,rfl⟩)

end Longform.Markdown.Block
