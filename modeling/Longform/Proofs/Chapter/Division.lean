import Longform.Chapter
import Longform.Proofs.Fence.Opener
import Longform.Proofs.Fence.Scan
import Longform.Proofs.Text.Trim

/-! Dividing lines into chapters. The separators outside fences are the places where a text may be
cut, and the reader stands between fences at each of them. -/
namespace Longform
namespace Chapter

/-- No line outside fences separates chapters. -/
def Unseparated (xs : List (Text × Bool)) : Prop := ∀ x ∈ xs, x.2 = false → isSeparator x.1 = false

theorem unseparated_nil : Unseparated [] := fun _ hx => nomatch hx

theorem unseparated_cons {x : Text × Bool} {xs : List (Text × Bool)} :
    Unseparated (x::xs) ↔ (x.2 = false → isSeparator x.1 = false) ∧ Unseparated xs :=
  List.forall_mem_cons

/-- Groups of lines with a separator between neighbours. Only the last group may leave a fence
open. -/
inductive Division : List Text → List (List Text) → Prop
  | last {ls : List Text} (whole : Unseparated (Fence.scan ls)) : Division ls [ls]
  | cut {ls rest : List Text} {l : Text} {gs : List (List Text)}
      (whole : Unseparated (Fence.scan ls)) (closed : Fence.stateAfter .normal ls = .normal)
      (separator : isSeparator l = true) (tail : Division rest gs) :
      Division (ls ++ l::rest) (ls::gs)

theorem exists_of_isSeparator {l : Text} (h : isSeparator l = true) :
    ∃ r, l = '-' :: '-' :: '-' :: r := by
  have htrim : Text.trimEnd l = separator := by simpa [isSeparator] using h
  obtain ⟨r,hr,-⟩ := Text.exists_dropEndWhile_append Text.isBlank l
  refine ⟨r,?_⟩
  rw [hr,show Text.dropEndWhile Text.isBlank l = separator from htrim]
  rfl

/-- A separator opens no fence. -/
theorem advance_separator {l : Text} (h : isSeparator l = true) :
    Fence.advance .normal l = .normal := by
  obtain ⟨r,rfl⟩ := exists_of_isSeparator h
  rw [Fence.advance_normal_eq_normal_iff]
  exact Fence.opener?_of_not_mark (r:=['-','-'] ++ r) (c := '-') rfl (by decide)

theorem groups_append {xs ys : List (Text × Bool)} {g : List Text} {gs : List (List Text)}
    (h : Unseparated xs) (hys : groups ys = g::gs) :
    groups (xs ++ ys) = (xs.map (·.1) ++ g)::gs := by
  induction xs with
  | nil => exact hys
  | cons x xs ih =>
    obtain ⟨l,b⟩ := x
    obtain ⟨hx,hxs⟩ := unseparated_cons.mp h
    have hl : ¬(!b && isSeparator l) = true := by
      cases b <;> simp_all
    rw [List.cons_append,groups,if_neg hl,ih hxs]
    rfl

theorem Division.groups_scan {ls : List Text} {gs : List (List Text)} (h : Division ls gs) :
    groups (Fence.scan ls) = gs := by
  induction h with
  | @last ls whole =>
    have hls : groups (Fence.scan ls ++ []) = _ := groups_append whole rfl
    simpa [Fence.scan,Fence.map_fst_scanFrom] using hls
  | @cut ls rest l gs whole closed separator tail ih =>
    have hrest : groups (Fence.scanFrom .normal (l::rest)) = []::gs := by
      rw [Fence.scanFrom,advance_separator separator,groups,← ih]
      exact if_pos (by simp [Fence.State.isFenced,separator])
    have hls := groups_append whole hrest
    rw [Fence.scan,Fence.scanFrom_append,closed]
    simpa [Fence.scan,Fence.map_fst_scanFrom] using hls

/-- Lines are free of separators, or there is a first one. -/
theorem unseparated_or_exists_cut (s : Fence.State) (ls : List Text) :
    Unseparated (Fence.scanFrom s ls) ∨ ∃ front l rest, ls = front ++ l::rest ∧
      Unseparated (Fence.scanFrom s front) ∧ Fence.stateAfter s front = .normal ∧
      isSeparator l = true := by
  induction ls generalizing s with
  | nil => exact .inl unseparated_nil
  | cons l ls ih =>
    by_cases hcut : s.isFenced (Fence.advance s l) = false ∧ isSeparator l = true
    · have hs := (Fence.isFenced_eq_false_iff.mp hcut.1).1
      exact .inr ⟨[],l,ls,rfl,unseparated_nil,hs,hcut.2⟩
    · have hl : s.isFenced (Fence.advance s l) = false → isSeparator l = false := fun hfalse =>
        Bool.eq_false_iff.mpr fun hsep => hcut ⟨hfalse,hsep⟩
      rcases ih (Fence.advance s l) with hls | ⟨front,k,rest,rfl,hfront,hclosed,hk⟩
      · exact .inl (unseparated_cons.mpr ⟨hl,hls⟩)
      · exact .inr ⟨l::front,k,rest,rfl,unseparated_cons.mpr ⟨hl,hfront⟩,hclosed,hk⟩

theorem exists_division (ls : List Text) : ∃ gs, Division ls gs := by
  rcases unseparated_or_exists_cut .normal ls with hls | ⟨front,l,rest,rfl,hfront,hclosed,hl⟩
  · exact ⟨[ls],.last hls⟩
  · obtain ⟨gs,hgs⟩ := exists_division rest
    exact ⟨front::gs,.cut hfront hclosed hl hgs⟩
termination_by ls.length

/-- The groups of lines are their one division. -/
theorem division_iff {ls : List Text} {gs : List (List Text)} :
    Division ls gs ↔ groups (Fence.scan ls) = gs := by
  constructor
  · exact Division.groups_scan
  · intro h
    obtain ⟨gs',hgs'⟩ := exists_division ls
    rwa [← h,hgs'.groups_scan]

namespace Division
variable {ls : List Text} {gs : List (List Text)}

theorem mem_of_mem (h : Division ls gs) : ∀ g ∈ gs, ∀ l ∈ g, l ∈ ls := by
  induction h with
  | last => simp
  | cut whole closed separator tail ih =>
    intro g hg l hl
    rcases List.mem_cons.mp hg with rfl | hg
    · simp [hl]
    · simp [ih g hg l hl]

theorem unseparated (h : Division ls gs) : ∀ g ∈ gs, Unseparated (Fence.scan g) := by
  induction h with
  | last whole => simpa using whole
  | cut whole closed separator tail ih => simpa using ⟨whole,ih⟩

theorem ne_nil (h : Division ls gs) : gs ≠ [] := by
  cases h <;> simp

theorem closed (h : Division ls gs) : ∀ g ∈ gs.dropLast, Fence.stateAfter .normal g = .normal := by
  induction h with
  | last => simp
  | cut whole closed separator tail ih =>
    rw [List.dropLast_cons_of_ne_nil tail.ne_nil]
    simpa using ⟨closed,ih⟩

/-- The groups share out the lines of fences. -/
theorem flatMap_fencedFrom (h : Division ls gs) :
    gs.flatMap (Fence.fencedFrom .normal) = Fence.fencedFrom .normal ls := by
  induction h with
  | last => simp
  | @cut ls rest l gs whole closed separator tail ih =>
    have hl := Fence.isFenced_eq_false_iff.mpr ⟨rfl,advance_separator separator⟩
    rw [Fence.fencedFrom_append,closed,Fence.fencedFrom_cons_of_unfenced hl,← ih]
    rfl

end Division
end Chapter
end Longform
