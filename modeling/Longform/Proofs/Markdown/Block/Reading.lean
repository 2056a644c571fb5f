import Longform.Proofs.Markdown.Block.Aside
import Longform.Proofs.Markdown.Block.Definition
import Longform.Proofs.Markdown.Block.List

/-! Reading blocks, however deep they nest, depends on nothing behind the lines that may be read. -/
namespace Longform.Markdown.Block
open State

variable {s : State} {m b n start stop fuel : Nat} {nested : Nested}

theorem isLocal_of_mem_rules (hnested : nested.IsLocal m b) {rule : Rule} (h : rule ∈ rules nested) :
    Rule.IsLocal m b rule := by
  simp only [rules,List.mem_cons,List.not_mem_nil,or_false] at h
  rcases h with rfl | rfl | rfl | rfl | rfl | rfl | rfl | rfl | rfl | rfl | rfl | rfl
  · exact isLocal_table
  · exact isLocal_code
  · intro s start stop h hstart hstop
    exact aside_both hnested h.toLined h.quiet hstart (Nat.le_trans hstop h.max)
  · exact isLocal_fence
  · exact isLocal_quote hnested
  · exact isLocal_thematicBreak
  · exact isLocal_list hnested
  · exact isLocal_definition
  · exact isLocal_rawBlock
  · exact isLocal_heading
  · exact isLocal_underlined
  · exact isLocal_paragraph

theorem tryRules_both {rs : List Rule} (hrules : ∀ rule ∈ rs, Rule.IsLocal m b rule)
    (h : s.Bounded m b) (hstart : start < stop) (hstop : stop ≤ s.lineMax) (hline : s.line ≤ m) :
    Both (Follows m b s) (tryRules start stop rs s) (tryRules start stop rs (s.cut m b)) := by
  induction rs with
  | nil => exact both_ok ⟨.refl s,hline,rfl⟩
  | cons rule rs ih =>
    rw [tryRules,tryRules]
    rcases hrules rule (by simp) s start stop h hstart hstop with ⟨e,hx,hy⟩ | ⟨o,o',hx,hy,ho⟩
    · rw [hx,hy]
      exact both_error e
    rw [hx,hy]
    cases ho with
    | none => exact ih fun r hr => hrules r (by simp [hr])
    | some hfollows => exact both_ok hfollows

theorem keeps_setTight (tight : Bool) : s.Keeps (s.setTight tight) :=
  ⟨rfl,rfl,rfl,rfl,rfl,rfl,.refl _⟩

theorem blocksFrom_both {sawEmpty : Bool} (hnested : nested.IsLocal m b) (h : s.Bounded m b)
    (hstop : stop ≤ s.lineMax) (hline : s.line ≤ m ∨ n < stop ∧ fuel ≠ 0) :
    Both (Follows m b s) (blocksFrom nested stop fuel n sawEmpty s)
      (blocksFrom nested stop fuel n sawEmpty (s.cut m b)) := by
  have hmax := h.max
  induction fuel generalizing n sawEmpty s with
  | zero => exact both_ok ⟨.refl s,hline.resolve_right fun hn => hn.2 rfl,rfl⟩
  | succ fuel ih =>
    have hgo : ∀ (t : State) k, (t.cut m b).goTo k = (t.goTo k).cut m b := fun _ _ => rfl
    have htight : ∀ (t : State) k, (t.cut m b).setTight k = (t.setTight k).cut m b := fun _ _ => rfl
    have hsame : ∀ t : State, (t.cut m b).line = t.line ∧ (t.cut m b).level = t.level ∧
        (t.cut m b).lineMax = t.lineMax := fun _ => ⟨rfl,rfl,rfl⟩
    simp only [blocksFrom,hsame,skipEmpty_cut hmax,hgo]
    by_cases hn : stop ≤ n
    · rw [if_pos hn,if_pos hn]
      exact both_ok ⟨.refl s,hline.resolve_right fun hlt => by omega,rfl⟩
    rw [if_neg hn,if_neg hn]
    have hskip : s.skipEmpty (s.lineMax - n) n ≤ s.lineMax := skipEmpty_le (by omega)
    generalize s.skipEmpty (s.lineMax - n) n = n' at hskip ⊢
    have hpassed : Both (Follows m b s) (.ok (s.goTo n')) (.ok ((s.goTo n').cut m b)) :=
      both_ok ⟨keeps_goTo n',Nat.le_trans hskip hmax,rfl⟩
    by_cases hend : stop ≤ n'
    · simpa [hend] using hpassed
    have hn' : n' < m := by omega
    rw [isOutdented_cut hn']
    split
    · exact hpassed
    split
    · exact both_ok ⟨(keeps_goTo n').trans (keeps_goTo stop),Nat.le_trans hstop hmax,rfl⟩
    have hbounded := h.keeps (keeps_goTo n')
    rcases tryRules_both (fun _ => isLocal_of_mem_rules hnested) hbounded (Nat.lt_of_not_le hend) hstop
      (Nat.le_of_lt hn') with ⟨e,hx,hy⟩ | ⟨t,_,hx,hy,hkeeps,hnext,rfl⟩
    · rw [hx,hy]
      exact both_error e
    rw [hx,hy]
    have hkeeps' := ((keeps_goTo n').trans hkeeps).trans (keeps_setTight !sawEmpty)
    have hnext' : (t.setTight !sawEmpty).line ≤ m := hnext
    simp only [htight,hsame]
    generalize t.setTight (!sawEmpty) = t' at hkeeps' hnext' ⊢
    have ht' := h.keeps hkeeps'
    have hstop' : stop ≤ t'.lineMax := hkeeps'.lineMax ▸ hstop
    have habove : (decide (t'.line - 1 < stop) && (t'.cut m b).isEmpty (t'.line - 1)) =
        (decide (t'.line - 1 < stop) && t'.isEmpty (t'.line - 1)) := by
      by_cases hlt : t'.line - 1 < stop
      · rw [isEmpty_cut (by omega)]
      · simp [hlt]
    have hbelow : (decide (t'.line < stop) && (t'.cut m b).isEmpty t'.line) =
        (decide (t'.line < stop) && t'.isEmpty t'.line) := by
      by_cases hlt : t'.line < stop
      · rw [isEmpty_cut (by omega)]
      · simp [hlt]
    simp only [Bool.and_assoc,habove,hbelow]
    split
    · rename_i hempty
      simp only [Bool.and_eq_true,decide_eq_true_eq] at hempty
      have hgone : (t'.goTo (t'.line + 1)).line ≤ m := by
        change t'.line + 1 ≤ m
        omega
      rw [hgo]
      refine (ih (ht'.keeps (keeps_goTo (t'.line + 1))) hstop' (.inl hgone) ht'.max).mono fun x y hxy => ?_
      exact ⟨(hkeeps'.trans (keeps_goTo _)).trans hxy.1,hxy.2⟩
    · exact (ih ht' hstop' (.inl hnext') ht'.max).mono fun x y hxy => ⟨hkeeps'.trans hxy.1,hxy.2⟩

/-- Blocks come to the same in states that are cut off behind the lines they may be read from: by
induction on how deep they nest. -/
theorem isLocal_read (depth : Nat) : (read depth).IsLocal m b := by
  induction depth with
  | zero =>
    refine ⟨fun s start stop h hstop => ?_,fun s n hmax hempty => rfl⟩
    exact both_ok ⟨keeps_goTo stop,fun _ => Nat.le_trans hstop h.max,rfl⟩
  | succ depth ih =>
    refine ⟨fun s start stop h hstop => ?_,fun s n hmax hempty => ?_⟩
    · by_cases hstart : start < stop
      · exact (blocksFrom_both ih h hstop (.inr ⟨hstart,by omega⟩)).mono fun x y hxy =>
          ⟨hxy.1,fun _ => hxy.2.1,hxy.2.2⟩
      · simp only [read,blocksFrom,Nat.le_of_not_lt hstart,if_true]
        exact both_ok ⟨.refl s,fun hlt => absurd hlt hstart,rfl⟩
    · have hpast : s.skipEmpty (s.lineMax - n) n = n + 1 := by
        rw [hmax,Nat.add_sub_cancel_left]
        simp [skipEmpty,hmax,hempty]
      simp only [read,blocksFrom,hpast]
      rw [if_neg (Nat.not_succ_le_self n)]
      simp

end Longform.Markdown.Block
