import Longform.Proofs.Markdown.Block.Local

/-! The lines of a text, as they are cut before any block is read: all of them may be read. -/
namespace Longform.Markdown.Block
open State

variable {n : Nat}

/-- Lines that follow one another in a text, the first not before `first`. -/
def AreLined (t : Text) : Nat → List Line → Prop
  | _, [] => True
  | first, l :: ls => first ≤ l.start ∧ l.textStart ≤ l.stop ∧ l.stop ≤ t.length ∧
      (∀ c, t[l.stop]? = some c → c = '\n') ∧ AreLined t (l.stop + 1) ls

theorem areLined_cutLines {t before r : Text} {start shift width : Nat} {inIndent : Bool}
    (ht : t = before ++ r) (hstart : start + shift ≤ before.length) :
    AreLined t start (cutLines r before.length start inIndent shift width) := by
  induction r generalizing before start shift width inIndent with
  | nil => exact trivial
  | cons c r ih =>
    have hnext : t = (before ++ [c]) ++ r := by simp [ht]
    have hlength : (before ++ [c]).length = before.length + 1 := by simp
    rw [cutLines]
    split
    · exact hlength ▸ ih hnext (by omega)
    split
    · rename_i hbreak
      refine ⟨Nat.le_refl _,hstart,by simp [ht],?_,?_⟩
      · intro d hd
        rw [ht,List.getElem?_append_right (Nat.le_refl _)] at hd
        simp only [Nat.sub_self,List.getElem?_cons_zero,Option.some.injEq] at hd
        exact hd ▸ hbreak
      · exact hlength ▸ ih hnext (by omega)
    split
    · rename_i hlast
      rw [List.isEmpty_iff] at hlast
      subst hlast
      refine ⟨Nat.le_refl _,Nat.le_succ_of_le hstart,by simp [ht],?_,trivial⟩
      intro d hd
      rw [ht,List.getElem?_eq_none (by simp)] at hd
      cases hd
    · exact hlength ▸ ih hnext (by omega)

theorem AreLined.line {t : Text} {ls : List Line} {first : Nat} {l : Line} (h : AreLined t first ls)
    (hl : ls[n]? = some l) : first ≤ l.start ∧ l.textStart ≤ l.stop ∧ l.stop ≤ t.length ∧
      (∀ c, t[l.stop]? = some c → c = '\n') ∧ ∀ l', ls[n + 1]? = some l' → l.stop < l'.start := by
  induction ls generalizing first n l with
  | nil => cases hl
  | cons x ls ih =>
    obtain ⟨hfirst,hfits,hinside,hbreaks,hrest⟩ := h
    cases n with
    | zero =>
      cases hl
      refine ⟨hfirst,hfits,hinside,hbreaks,fun l' hl' => ?_⟩
      exact (ih (n:=0) hrest hl').1
    | succ n =>
      obtain ⟨hbegin,hline⟩ := ih hrest hl
      refine ⟨?_,hline⟩
      have : x.start ≤ x.textStart := Nat.le_add_right _ _
      omega

/-- Every line of a text may be read. -/
theorem bounded_ofText (t : Text) :
    (State.ofText t).Bounded ((State.ofText t).lines.size - 1) (t.length + 1) := by
  have hlined : AreLined t 0 (cutLines t 0 0 true 0 0) :=
    areLined_cutLines (show t = [] ++ t from rfl) (Nat.le_refl 0)
  have hsize : (State.ofText t).lines.size - 1 = (cutLines t 0 0 true 0 0).length := by
    simp [State.ofText]
  have hline : ∀ n < (cutLines t 0 0 true 0 0).length,
      (cutLines t 0 0 true 0 0)[n]? = some ((State.ofText t).lineAt n) := by
    intro n hn
    simp only [State.ofText,lineAt,Array.getD_eq_getD_getElem?,Array.getElem?_push,List.size_toArray]
    rw [if_neg (by omega),List.getElem?_toArray,List.getElem?_eq_getElem hn]
    rfl
  have hchar : ∀ pos, (State.ofText t).char? pos = t[pos]? := fun pos => by
    simp [State.ofText,char?]
  have hsrc : (State.ofText t).src.size = t.length := by simp [State.ofText]
  refine ⟨?_,?_,isQuiet_of_isEmpty ?_⟩
  · rw [hsize]
    refine ⟨by simp [State.ofText],fun n hn => ?_,fun n hn => ?_,fun n hn => ?_,fun n hn => ?_,
      fun n hn => ?_⟩
    · exact (hlined.line (hline n hn)).2.1
    · exact hsrc ▸ (hlined.line (hline n hn)).2.2.1
    · exact Nat.lt_succ_of_le (hlined.line (hline n hn)).2.2.1
    · exact hchar _ ▸ (hlined.line (hline n hn)).2.2.2.1
    · exact (hlined.line (hline n (by omega))).2.2.2.2 _ (hline (n + 1) hn)
  · exact Nat.le_of_eq (by simp [State.ofText])
  · have hlast : (State.ofText t).lineAt ((State.ofText t).lines.size - 1) =
        ⟨t.length,t.length,0,0,0⟩ := by
      rw [hsize]
      simp [State.ofText,lineAt,Array.getD_eq_getD_getElem?]
    rw [State.isEmpty,hlast]
    exact decide_eq_true (Nat.le_refl _)

end Longform.Markdown.Block
