import Longform.Fence
import Longform.Proofs.Text.Lines

/-! Reading lines with their fences. A scan of lines behind others goes on in the state that they
leave; lines that open no fence leave the state between fences as it is. -/
namespace Longform
namespace Fence

/-- The state behind some lines. -/
def stateAfter (s : State) (ls : List Text) : State := ls.foldl advance s

@[simp] theorem stateAfter_nil (s : State) : stateAfter s [] = s := rfl
@[simp] theorem stateAfter_cons (s : State) (l : Text) (ls : List Text) :
    stateAfter s (l::ls) = stateAfter (advance s l) ls := rfl

theorem scanFrom_append (s : State) (xs ys : List Text) :
    scanFrom s (xs ++ ys) = scanFrom s xs ++ scanFrom (stateAfter s xs) ys := by
  induction xs generalizing s with
  | nil => rfl
  | cons l xs ih => simp [scanFrom,ih]

theorem map_fst_scanFrom (s : State) (ls : List Text) : (scanFrom s ls).map (·.1) = ls := by
  induction ls generalizing s with
  | nil => rfl
  | cons l ls ih => simp [scanFrom,ih]

/-- The lines of fences, in order. -/
def fencedFrom (s : State) (ls : List Text) : List Text :=
  ((scanFrom s ls).filter (·.2)).map (·.1)

/-- The lines of a text that belong to fences, in order. -/
def fenced (t : Text) : List Text := fencedFrom .normal (Text.lines t)

theorem fencedFrom_append (s : State) (xs ys : List Text) :
    fencedFrom s (xs ++ ys) = fencedFrom s xs ++ fencedFrom (stateAfter s xs) ys := by
  simp [fencedFrom,scanFrom_append]

theorem fencedFrom_cons_of_fenced {s : State} {l : Text} (h : s.isFenced (advance s l) = true)
    (ls : List Text) : fencedFrom s (l::ls) = l::fencedFrom (advance s l) ls := by
  simp [fencedFrom,scanFrom,h]

/-- A line outside fences leaves the reader between fences. -/
theorem isFenced_eq_false_iff {s s' : State} :
    s.isFenced s' = false ↔ s = .normal ∧ s' = .normal := by
  cases s <;> cases s' <;> simp [State.isFenced]

/-- A line outside fences is passed over, and the reader goes on between fences. -/
theorem fencedFrom_cons_of_unfenced {s : State} {l : Text} (h : s.isFenced (advance s l) = false)
    (ls : List Text) : fencedFrom s (l::ls) = fencedFrom .normal ls := by
  obtain ⟨rfl,hl⟩ := isFenced_eq_false_iff.mp h
  rw [hl] at h
  simp [fencedFrom,scanFrom,hl,h]

theorem advance_normal_eq_normal_iff {l : Text} :
    advance .normal l = .normal ↔ opener? l = none := by
  rcases h : opener? l with _ | ⟨c,n⟩ <;> simp [advance,h]

/-- No line opens a fence. -/
def Plain (ls : List Text) : Prop := ∀ l ∈ ls, opener? l = none

theorem Plain.stateAfter {ls : List Text} (h : Plain ls) : stateAfter .normal ls = .normal := by
  induction ls with
  | nil => rfl
  | cons l ls ih =>
    rw [stateAfter_cons,advance_normal_eq_normal_iff.mpr (h l (by simp))]
    exact ih fun k hk => h k (by simp [hk])

theorem Plain.fencedFrom {ls : List Text} (h : Plain ls) : fencedFrom .normal ls = [] := by
  induction ls with
  | nil => rfl
  | cons l ls ih =>
    have hl := advance_normal_eq_normal_iff.mpr (h l (by simp))
    rw [fencedFrom_cons_of_unfenced (isFenced_eq_false_iff.mpr ⟨rfl,hl⟩)]
    exact ih fun k hk => h k (by simp [hk])

/-- Plain lines in front do not count. -/
theorem Plain.fencedFrom_append {xs : List Text} (h : Plain xs) (ys : List Text) :
    Fence.fencedFrom .normal (xs ++ ys) = Fence.fencedFrom .normal ys := by
  rw [Fence.fencedFrom_append,h.fencedFrom,h.stateAfter,List.nil_append]

theorem plain_nil_line : Plain [[]] := by
  intro l hl
  rw [List.mem_singleton] at hl
  subst hl
  rfl

/-- The fences of texts put together. -/
theorem fenced_joinLines_flatMap (ts : List Text) :
    fenced (Text.joinLines ts) = fencedFrom .normal (ts.flatMap Text.lines) := by
  by_cases hne : ts = []
  · subst hne
    exact plain_nil_line.fencedFrom
  · rw [fenced,Text.lines_joinLines_flatMap hne]

theorem fenced_joinLines {ls : List Text} (h : ∀ l ∈ ls, '\n' ∉ l) :
    fenced (Text.joinLines ls) = fencedFrom .normal ls := by
  rw [fenced_joinLines_flatMap,Text.flatMap_lines h]

end Fence
end Longform
