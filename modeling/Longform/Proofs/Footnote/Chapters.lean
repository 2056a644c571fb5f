import Mathlib.Data.List.Basic
import Longform.Proofs.Dictionary
import Longform.Proofs.Fence.Verbatim

/-! Notes and chapters. No note is continued beyond the line that separates two chapters, so it does
not matter whether the notes are taken out before a text is split or of each chapter by itself. -/
namespace Longform

namespace Footnote

/-- A line that is no part of any note. -/
def Foreign (l : Text) : Prop := continues l = false ∧ definition? l = none

theorem extractFrom_foreign {l : Text} (h : Foreign l) (notes : Dictionary Text)
    (current : Option Text) (xs : List (Text × Bool)) :
    extractFrom notes current ((l,false)::xs) =
      ((extractFrom notes none xs).1,l::(extractFrom notes none xs).2) := by
  have hcurrent : (current.filter fun _ => continues l) = none := by
    simp [h.1]
  simp [extractFrom,extractFrom.keep,hcurrent,h.2]

/-- Behind a line that is no part of any note, reading begins anew with the notes found so far. -/
theorem extractFrom_append_foreign {l : Text} (h : Foreign l) (notes : Dictionary Text)
    (current : Option Text) (xs ys : List (Text × Bool)) :
    extractFrom notes current (xs ++ (l,false)::ys) =
      let front := extractFrom notes current xs
      let back := extractFrom front.1 none ys
      (back.1,front.2 ++ l::back.2) := by
  fun_induction extractFrom notes current xs with
  | case1 notes current => exact extractFrom_foreign h notes current ys
  | case2 notes current k xs ih =>
    rw [List.cons_append,extractFrom,if_pos rfl,ih]
    rfl
  | case3 notes current k b xs hb id hid ih =>
    rw [List.cons_append,extractFrom,if_neg hb,hid]
    exact ih
  | case4 notes current k b xs hb hid id content hdef ih =>
    rw [List.cons_append,extractFrom,if_neg hb,hid]
    simp only [hdef]
    exact ih
  | case5 notes current k b xs hb hid hdef ih =>
    rw [List.cons_append,extractFrom,if_neg hb,hid]
    simp only [hdef,ih]
    rfl

/-- Notes found before are the first part of a merge. -/
theorem extractFrom_merge (d e : Dictionary Text) (current : Option Text)
    (xs : List (Text × Bool)) (hdistinct : e.keys.Nodup) (hcurrent : ∀ id ∈ current, id ∈ e.keys) :
    extractFrom (d.merge e) current xs =
      (d.merge (extractFrom e current xs).1,(extractFrom e current xs).2) := by
  fun_induction extractFrom e current xs with
  | case1 e current => rfl
  | case2 e current k xs ih =>
    rw [extractFrom,if_pos rfl,ih hdistinct (by simp)]
    rfl
  | case3 e current k b xs hb id hid ih =>
    have hid' : id ∈ e.keys := hcurrent id (Option.filter_eq_some_iff.mp hid).1
    rw [extractFrom,if_neg hb,hid]
    simp only
    rw [← Dictionary.merge_alter (extend k) hdistinct hid']
    exact ih (Dictionary.nodup_keys_set _ hdistinct) (by simp [Dictionary.alter,Dictionary.mem_keys_set])
  | case4 e current k b xs hb hid id content hdef ih =>
    rw [extractFrom,if_neg hb,hid]
    simp only [hdef]
    rw [← Dictionary.merge_set content hdistinct]
    exact ih (Dictionary.nodup_keys_set _ hdistinct) (by simp [Dictionary.mem_keys_set])
  | case5 e current k b xs hb hid hdef ih =>
    rw [extractFrom,if_neg hb,hid]
    simp only [hdef,ih hdistinct (by simp)]
    rfl

theorem extractFrom_none (notes : Dictionary Text) (xs : List (Text × Bool)) :
    extractFrom notes none xs =
      (notes.merge (extractFrom [] none xs).1,(extractFrom [] none xs).2) :=
  extractFrom_merge notes [] none xs List.nodup_nil (by simp)

section Scan

variable (notes : Dictionary Text) (current : Option Text)

/-- The lines that remain are fenced as they were. -/
theorem scanFrom_extractFrom_sublist (s : Fence.State) (ls : List Text) :
    (Fence.scanFrom s (extractFrom notes current (Fence.scanFrom s ls)).2).Sublist
      (Fence.scanFrom s ls) := by
  induction ls generalizing notes current s with
  | nil => exact List.Sublist.slnil
  | cons l ls ih =>
    rw [Fence.scanFrom]
    obtain ⟨notes',current',hkept | ⟨hb,hdropped⟩⟩ := extractFrom_cons notes current l
      (s.isFenced (Fence.advance s l)) (Fence.scanFrom (Fence.advance s l) ls)
    · rw [hkept,Fence.scanFrom]
      exact (ih notes' current' _).cons_cons _
    · obtain ⟨hs,hl⟩ := Fence.isFenced_eq_false_iff.mp hb
      have htail := ih notes' current' (Fence.advance s l)
      rw [hdropped]
      rw [hl,← hs] at htail ⊢
      exact htail.cons _

theorem stateAfter_extractFrom (s : Fence.State) (ls : List Text) :
    Fence.stateAfter s (extractFrom notes current (Fence.scanFrom s ls)).2 =
      Fence.stateAfter s ls := by
  induction ls generalizing notes current s with
  | nil => rfl
  | cons l ls ih =>
    rw [Fence.scanFrom]
    obtain ⟨notes',current',hkept | ⟨hb,hdropped⟩⟩ := extractFrom_cons notes current l
      (s.isFenced (Fence.advance s l)) (Fence.scanFrom (Fence.advance s l) ls)
    · rw [hkept,Fence.stateAfter_cons,ih,Fence.stateAfter_cons]
    · obtain ⟨hs,hl⟩ := Fence.isFenced_eq_false_iff.mp hb
      have htail := ih notes' current' (Fence.advance s l)
      rw [hdropped,Fence.stateAfter_cons,← htail,hl,← hs]

end Scan

theorem extractFrom_of_no_definition {xs : List (Text × Bool)}
    (h : ∀ x ∈ xs, x.2 = false → definition? x.1 = none) (notes : Dictionary Text) :
    extractFrom notes none xs = (notes,xs.map (·.1)) := by
  induction xs with
  | nil => rfl
  | cons x xs ih =>
    obtain ⟨l,b⟩ := x
    rw [List.forall_mem_cons] at h
    cases b with
    | true => rw [extractFrom,if_pos rfl,ih h.2]; rfl
    | false =>
      rw [extractFrom,if_neg Bool.false_ne_true]
      simp only [Option.filter_none,h.1,ih h.2]
      rfl

theorem definition?_of_allBlank {l : Text} (h : Text.allBlank l = true) : definition? l = none := by
  cases l with
  | nil => rfl
  | cons c r =>
    have hc : c ≠ '[' := by
      rintro rfl
      simp [Text.allBlank,Text.isBlank] at h
    simp [definition?,Text.after?,Ne.symm hc]

/-- A blank text has no notes. -/
theorem extract_of_allBlank {t : Text} (h : Text.allBlank t = true) : extract t = ([],t) := by
  have hlines : ∀ x ∈ Fence.scan (Text.lines t), x.2 = false → definition? x.1 = none := by
    intro x hx _
    have hmem : x.1 ∈ Text.lines t := by
      have hfst := List.mem_map_of_mem (f:=fun x : Text × Bool => x.1) hx
      rwa [Fence.scan,Fence.map_fst_scanFrom] at hfst
    refine definition?_of_allBlank (List.all_eq_true.mpr fun c hc => ?_)
    exact List.all_eq_true.mp h c (Text.of_mem_of_mem_lines hmem hc).1
  rw [extract,extractFrom_of_no_definition hlines,Fence.scan,Fence.map_fst_scanFrom,
    Text.joinLines_lines]

theorem extract_joinLines {ls : List Text} (h : ∀ l ∈ ls, '\n' ∉ l) :
    extract (Text.joinLines ls) = ((extractLines ls).1,Text.joinLines (extractLines ls).2) := by
  by_cases hne : ls = []
  · subst hne
    rfl
  · rw [extract,Text.lines_joinLines hne h]

end Footnote

namespace Chapter
open Footnote

/-- A separator is neither indented nor the beginning of a note. -/
theorem foreign_separator {l : Text} (h : isSeparator l = true) : Foreign l := by
  obtain ⟨r,rfl⟩ := exists_of_isSeparator h
  constructor <;> rfl

/-- Taking out notes divides the remaining lines at the same separators. -/
theorem Division.extractFrom {ls : List Text} {gs : List (List Text)} (h : Division ls gs)
    (notes : Dictionary Text) :
    (extractFrom notes none (Fence.scan ls)).1 =
        gs.foldl (fun found g => Dictionary.merge found (extractLines g).1) notes ∧
      Division (extractFrom notes none (Fence.scan ls)).2 (gs.map fun g => (extractLines g).2) := by
  have hwhole : ∀ g, Unseparated (Fence.scan g) → Unseparated (Fence.scan (extractLines g).2) :=
    fun g hg x hx => hg x ((scanFrom_extractFrom_sublist [] none .normal g).subset hx)
  induction h generalizing notes with
  | @last ls whole =>
    rw [extractFrom_none]
    exact ⟨rfl,.last (hwhole ls whole)⟩
  | @cut ls rest l gs whole closed separator tail ih =>
    have hscan : Fence.scan (ls ++ l::rest) = Fence.scan ls ++ (l,false)::Fence.scan rest := by
      rw [Fence.scan,Fence.scanFrom_append,closed,Fence.scanFrom,advance_separator separator]
      rfl
    rw [hscan,extractFrom_append_foreign (foreign_separator separator),extractFrom_none notes]
    obtain ⟨hnotes,hdivision⟩ := ih (notes.merge (extractLines ls).1)
    refine ⟨hnotes,.cut (hwhole ls whole) ?_ separator hdivision⟩
    exact (stateAfter_extractFrom [] none .normal ls).trans closed

theorem sources_joinLines {ls : List Text} (h : ∀ l ∈ ls, '\n' ∉ l) :
    sources (Text.joinLines ls) =
      ((groups (Fence.scan ls)).map Text.joinLines).filter fun s => !Text.allBlank s := by
  by_cases hne : ls = []
  · subst hne
    rfl
  · rw [sources,Text.lines_joinLines hne h]

/-- Blank sources have no notes and stay blank. -/
theorem map_extract_filter (ss : List Text) :
    (((ss.filter fun s => !Text.allBlank s).map fun s => (extract s).2).filter
        fun s => !Text.allBlank s) =
      (ss.map fun s => (extract s).2).filter fun s => !Text.allBlank s := by
  induction ss with
  | nil => rfl
  | cons s ss ih =>
    cases hs : Text.allBlank s with
    | true => simpa [hs,extract_of_allBlank hs] using ih
    | false => simp only [hs,List.filter_cons,List.map_cons,Bool.not_false,if_true,ih]

theorem foldl_merge_filter (ss : List Text) (notes : Dictionary Text) :
    (ss.filter fun s => !Text.allBlank s).foldl (fun found s => Dictionary.merge found (extract s).1) notes =
      ss.foldl (fun found s => Dictionary.merge found (extract s).1) notes := by
  induction ss generalizing notes with
  | nil => rfl
  | cons s ss ih =>
    cases hs : Text.allBlank s with
    | true => simpa [hs,extract_of_allBlank hs] using ih notes
    | false => simpa [hs] using ih _

/-- Taking the notes out of a text and out of each of its chapters comes to the same: the same sources
remain, those that became blank dropped, and the notes of the text are those of its chapters merged
in order. -/
theorem sources_extract (t : Text) :
    sources (extract t).2 =
        ((sources t).map fun s => (extract s).2).filter (fun s => !Text.allBlank s) ∧
      (extract t).1 = (sources t).foldl (fun found s => Dictionary.merge found (extract s).1) [] := by
  have hdivision : Division (Text.lines t) (groups (Fence.scan (Text.lines t))) :=
    division_iff.mpr rfl
  have hgroup : ∀ g ∈ groups (Fence.scan (Text.lines t)), extract (Text.joinLines g) =
      ((extractLines g).1,Text.joinLines (extractLines g).2) := fun g hg =>
    extract_joinLines fun l hl => Text.newline_not_mem_lines (hdivision.mem_of_mem g hg l hl)
  have hkept := newline_not_mem_extractLines t
  obtain ⟨hnotes,hrest⟩ := hdivision.extractFrom []
  constructor
  · rw [extract,sources_joinLines hkept,hrest.groups_scan,sources,map_extract_filter,List.map_map,
      List.map_map]
    refine congrArg _ (List.map_congr_left fun g hg => ?_)
    simp only [Function.comp_apply,hgroup g hg]
  · rw [extract,hnotes,sources,foldl_merge_filter,List.foldl_map]
    exact List.foldl_ext _ _ _ fun found g hg => by rw [hgroup g hg]

end Chapter
end Longform
