import Longform.Fence
import Longform.Proofs.Text.Lines
import Longform.Proofs.Text.Search

/-! Which lines open a fence. Only what the first character behind the gap is, how often it is
repeated, and whether a backtick stands behind the run decides. -/
namespace Longform
namespace Fence

def IsMark (c : Char) : Prop := c = '\x60' ∨ c = '~'

instance (c : Char) : Decidable (IsMark c) := inferInstanceAs (Decidable (_ ∨ _))

/-- Space in front of the marks of a fence. -/
def isGap (c : Char) : Bool := c = ' ' || c = '\t'

theorem opener?_of_dropWhile_nil {l : Text} (h : l.dropWhile isGap = []) : opener? l = none := by
  unfold isGap at h
  rw [opener?,h]

theorem opener?_of_not_mark {l r : Text} {c : Char} (h : l.dropWhile isGap = c::r)
    (hc : ¬IsMark c) : opener? l = none := by
  unfold isGap at h
  rw [opener?,h]
  simp only [Bool.or_eq_true,decide_eq_true_eq]
  exact if_neg hc

theorem opener?_of_mark {l r : Text} {c : Char} (h : l.dropWhile isGap = c::r) (hc : IsMark c)
    (hr : '\n' ∉ r) : opener? l = none ↔
      (r.takeWhile (· = c)).length + 1 < 3 ∨ c = '\x60' ∧ '\x60' ∈ r.dropWhile (· = c) := by
  have hrest : '\n' ∉ r.dropWhile (· = c) := fun hm => hr ((List.dropWhile_sublist _).subset hm)
  unfold isGap at h
  unfold IsMark at hc
  rw [opener?,h]
  simp only [Bool.or_eq_true,decide_eq_true_eq,if_pos hc,Text.oneLine?_of_not_mem hrest]
  split <;> simp_all

/-- Blanks are no marks. -/
theorem not_isMark_of_isBlank {c : Char} (h : Text.isBlank c = true) : ¬IsMark c := by
  rintro (rfl | rfl) <;> exact absurd h (by decide)

/-- A line of blanks opens no fence. -/
theorem opener?_of_allBlank {l : Text} (h : Text.allBlank l = true) : opener? l = none := by
  rcases hd : l.dropWhile isGap with _ | ⟨c,r⟩
  · exact opener?_of_dropWhile_nil hd
  · have hc : c ∈ l := (List.dropWhile_sublist isGap).subset (hd ▸ List.mem_cons_self)
    exact opener?_of_not_mark hd (not_isMark_of_isBlank (List.all_eq_true.mp h c hc))

/-- A line that opens a fence of `n` marks: behind spaces and tabs stands a whole run of them, and no
backtick behind a run of backticks. -/
structure Opens (c : Char) (n : Nat) (l : Text) : Prop where
  mark : IsMark c
  three_le : 3 ≤ n
  exists_run : ∃ gap info, l = gap ++ (List.replicate n c ++ info) ∧ (∀ d ∈ gap, isGap d = true) ∧
    info.head? ≠ some c ∧ (c = '\x60' → '\x60' ∉ info)

theorem not_isMark_of_isGap {c : Char} (h : isGap c = true) : ¬IsMark c := by
  rintro (rfl | rfl) <;> exact absurd h (by decide)

/-- Every line is a gap, a run of the character behind it and the rest. -/
theorem exists_gap_run {l : Text} (h : l.dropWhile isGap ≠ []) : ∃ gap c n info,
    l = gap ++ (List.replicate (n + 1) c ++ info) ∧ (∀ d ∈ gap, isGap d = true) ∧
      isGap c = false ∧ info.head? ≠ some c := by
  obtain ⟨gap,s,rfl,-,hdrop,hgap,hstop⟩ := Text.exists_span isGap l
  obtain ⟨c,r,rfl⟩ := List.exists_cons_of_ne_nil (hdrop ▸ h)
  obtain ⟨run,info,rfl,-,-,hrun,hinfo⟩ := Text.exists_span (fun d => decide (d = c)) r
  have hreplicate : run = List.replicate run.length c :=
    List.eq_replicate_of_mem fun d hd => by simpa using hrun d hd
  refine ⟨gap,c,run.length,info,?_,hgap,hstop c rfl,fun hc => by simpa using hinfo c hc⟩
  rw [List.replicate_succ,← hreplicate,List.cons_append]

theorem dropWhile_isGap_append {c : Char} {gap : Text} (hgap : ∀ d ∈ gap, isGap d = true)
    (hc : isGap c = false) (n : Nat) (info : Text) :
    (gap ++ (List.replicate (n + 1) c ++ info)).dropWhile isGap =
      c::(List.replicate n c ++ info) :=
  (Text.takeWhile_append_stop hgap (by simpa [List.replicate_succ] using hc)).2

/-- The run behind the gap decides, and a backtick behind it. -/
theorem opener?_append {c : Char} {n : Nat} {gap info : Text} (hgap : ∀ d ∈ gap, isGap d = true)
    (hc : IsMark c) (hstop : info.head? ≠ some c) (hinfo : '\n' ∉ info) :
    opener? (gap ++ (List.replicate (n + 1) c ++ info)) =
      if n + 1 < 3 ∨ (c = '\x60' ∧ '\x60' ∈ info) then none else some (c,n + 1) := by
  have hrun := Text.takeWhile_append_stop (p := fun d => decide (d = c)) (s := List.replicate n c)
    (r := info) (by simp) (fun d hd => by simpa using fun h : d = c => hstop (h ▸ hd))
  have hdrop := dropWhile_isGap_append hgap
    (Bool.eq_false_iff.mpr fun h => not_isMark_of_isGap h hc) n info
  unfold isGap at hdrop
  unfold IsMark at hc
  rw [opener?,hdrop]
  simp only [hrun,Bool.or_eq_true,decide_eq_true_eq,if_pos hc,Text.oneLine?_of_not_mem hinfo,
    Bool.and_eq_true,List.length_replicate]

theorem opener?_eq_some_iff {c : Char} {n : Nat} {l : Text} (h : '\n' ∉ l) :
    opener? l = some (c,n) ↔ Opens c n l := by
  constructor
  · intro hopener
    have hne : l.dropWhile isGap ≠ [] := fun hnil => by
      rw [opener?_of_dropWhile_nil hnil] at hopener
      cases hopener
    obtain ⟨gap,d,m,info,rfl,hgap,hd,hstop⟩ := exists_gap_run hne
    by_cases hmark : IsMark d
    · have hinfo : '\n' ∉ info := fun hm => h (by simp [hm])
      rw [opener?_append hgap hmark hstop hinfo] at hopener
      split at hopener
      · cases hopener
      · rename_i hnot
        cases hopener
        rw [not_or,Nat.not_lt,not_and] at hnot
        exact ⟨hmark,hnot.1,gap,info,rfl,hgap,hstop,hnot.2⟩
    · rw [opener?_of_not_mark (dropWhile_isGap_append hgap hd m info) hmark] at hopener
      cases hopener
  · rintro ⟨hmark,hlong,gap,info,rfl,hgap,hstop,hinfo⟩
    obtain ⟨m,rfl⟩ : ∃ m, n = m + 1 := ⟨n - 1,by omega⟩
    rw [opener?_append hgap hmark hstop fun hm => h (by simp [hm]),if_neg]
    rintro (hshort | ⟨hc,hmem⟩)
    · omega
    · exact hinfo hc hmem

theorem isMark_of_opener? {c : Char} {n : Nat} {l : Text} (h : opener? l = some (c,n)) :
    IsMark c ∧ 3 ≤ n := by
  unfold opener? at h
  split at h
  · cases h
  · split at h
    · rename_i hmark
      simp only at h
      split at h
      · cases h
      · split at h
        · cases h
        · rename_i hlong
          cases h
          simp only [Bool.or_eq_true,Bool.and_eq_true,decide_eq_true_eq,not_or,Nat.not_lt] at hmark hlong
          exact ⟨hmark,hlong.1⟩
    · cases h

end Fence
end Longform
