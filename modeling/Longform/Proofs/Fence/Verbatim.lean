import Longform.Footnote.Definition
import Longform.Proofs.Chapter.Division
import Longform.Proofs.Figure.Plain

/-! Fences through the stages that rewrite source text. Each stage copies the lines of fences, and
what it makes of the other lines opens no fence for the stage behind it. -/
namespace Longform

namespace Footnote
variable (notes : Dictionary Text) (current : Option Text)

/-- Taking out definitions keeps a line, or drops it when it is outside fences. -/
theorem extractFrom_cons (l : Text) (b : Bool) (xs : List (Text × Bool)) :
    ∃ notes' current', (extractFrom notes current ((l,b)::xs)).2 =
        l::(extractFrom notes' current' xs).2 ∨
      b = false ∧ (extractFrom notes current ((l,b)::xs)).2 =
        (extractFrom notes' current' xs).2 := by
  cases b with
  | true => exact ⟨notes,none,.inl rfl⟩
  | false =>
    rw [extractFrom,if_neg Bool.false_ne_true]
    split
    · exact ⟨_,_,.inr ⟨rfl,rfl⟩⟩
    · split
      · exact ⟨_,_,.inr ⟨rfl,rfl⟩⟩
      · exact ⟨notes,none,.inl rfl⟩

theorem extractFrom_sublist (xs : List (Text × Bool)) :
    (extractFrom notes current xs).2.Sublist (xs.map (·.1)) := by
  induction xs generalizing notes current with
  | nil => exact .slnil
  | cons x xs ih =>
    obtain ⟨notes',current',hkept | ⟨-,hdropped⟩⟩ := extractFrom_cons notes current x.1 x.2 xs
    · rw [hkept]
      exact (ih notes' current').cons_cons _
    · rw [hdropped]
      exact (ih notes' current').cons _

theorem fencedFrom_extractFrom (s : Fence.State) (ls : List Text) :
    Fence.fencedFrom s (extractFrom notes current (Fence.scanFrom s ls)).2 =
      Fence.fencedFrom s ls := by
  induction ls generalizing notes current s with
  | nil => rfl
  | cons l ls ih =>
    rw [Fence.scanFrom]
    obtain ⟨notes',current',hkept | ⟨hb,hdropped⟩⟩ := extractFrom_cons notes current l
      (s.isFenced (Fence.advance s l)) (Fence.scanFrom (Fence.advance s l) ls)
    · rw [hkept]
      cases hb : s.isFenced (Fence.advance s l) with
      | true => rw [Fence.fencedFrom_cons_of_fenced hb,Fence.fencedFrom_cons_of_fenced hb,ih]
      | false =>
        have hl := (Fence.isFenced_eq_false_iff.mp hb).2
        rw [Fence.fencedFrom_cons_of_unfenced hb,Fence.fencedFrom_cons_of_unfenced hb,hl,ih]
    · obtain ⟨hs,hl⟩ := Fence.isFenced_eq_false_iff.mp hb
      rw [hdropped,Fence.fencedFrom_cons_of_unfenced hb,hl,hs,ih]

/-- The notes of some lines, and the lines that remain, where reading begins. -/
abbrev extractLines (ls : List Text) : Dictionary Text × List Text :=
  extractFrom [] none (Fence.scan ls)

theorem newline_not_mem_extractLines (t : Text) :
    ∀ l ∈ (extractLines (Text.lines t)).2, '\n' ∉ l := by
  intro l hl
  have hmem := (extractFrom_sublist [] none _).subset hl
  rw [Fence.scan,Fence.map_fst_scanFrom] at hmem
  exact Text.newline_not_mem_lines hmem

theorem fenced_extract (t : Text) : Fence.fenced (extract t).2 = Fence.fenced t := by
  rw [extract,Fence.fenced_joinLines (newline_not_mem_extractLines t)]
  exact fencedFrom_extractFrom [] none .normal (Text.lines t)

end Footnote

namespace Figure

/-- What is written for lines without fences has none. -/
theorem plain_flush {buffer : List Text} (hplain : Fence.Plain buffer)
    (hlines : ∀ l ∈ buffer, '\n' ∉ l) :
    Fence.Plain ((expandLines.flush buffer).flatMap Text.lines) := by
  by_cases hne : buffer = []
  · subst hne
    exact fun l hl => nomatch hl
  · have hsegment := plain_expandSegment (t:=Text.joinLines buffer)
      (by rwa [Text.lines_joinLines hne hlines])
    simpa [expandLines.flush,hne] using hsegment

variable {s : Fence.State} {buffer : List Text}

theorem fencedFrom_flush_append (hs : buffer = [] ∨ s = .normal) (hplain : Fence.Plain buffer)
    (hbuffer : ∀ l ∈ buffer, '\n' ∉ l) (ls : List Text) :
    Fence.fencedFrom s ((expandLines.flush buffer).flatMap Text.lines ++ ls) =
      Fence.fencedFrom s ls := by
  rcases hs with rfl | rfl
  · rfl
  · exact (plain_flush hplain hbuffer).fencedFrom_append ls

/-- Writing figures copies fences. Lines wait in the buffer only between fences. -/
theorem fencedFrom_expandLines {ls : List Text} (hs : buffer = [] ∨ s = .normal)
    (hplain : Fence.Plain buffer) (hbuffer : ∀ l ∈ buffer, '\n' ∉ l) (hls : ∀ l ∈ ls, '\n' ∉ l) :
    Fence.fencedFrom s ((expandLines buffer (Fence.scanFrom s ls)).flatMap Text.lines) =
      Fence.fencedFrom s ls := by
  induction ls generalizing s buffer with
  | nil => simpa [Fence.scanFrom,expandLines] using fencedFrom_flush_append hs hplain hbuffer []
  | cons l ls ih =>
    rw [List.forall_mem_cons] at hls
    rw [Fence.scanFrom,expandLines]
    cases hb : s.isFenced (Fence.advance s l) with
    | true =>
      rw [if_pos rfl,List.flatMap_append,fencedFrom_flush_append hs hplain hbuffer,
        List.flatMap_cons,Text.lines_of_not_mem hls.1,List.singleton_append,
        Fence.fencedFrom_cons_of_fenced hb,Fence.fencedFrom_cons_of_fenced hb,
        ih (.inl rfl) (by simp [Fence.Plain]) (by simp) hls.2]
    | false =>
      obtain ⟨rfl,hl⟩ := Fence.isFenced_eq_false_iff.mp hb
      have hopener := Fence.advance_normal_eq_normal_iff.mp hl
      rw [if_neg Bool.false_ne_true,Fence.fencedFrom_cons_of_unfenced hb,hl]
      refine ih (.inr rfl) ?_ ?_ hls.2
      · simpa [Fence.Plain,or_imp,forall_and] using ⟨hplain,hopener⟩
      · simpa [or_imp,forall_and] using ⟨hbuffer,hls.1⟩

theorem fenced_expand (t : Text) : Fence.fenced (expand t) = Fence.fenced t := by
  rw [expand,Fence.fenced_joinLines_flatMap]
  exact fencedFrom_expandLines (.inl rfl) (fun l hl => nomatch hl) (fun l hl => nomatch hl)
    fun l => Text.newline_not_mem_lines

end Figure

namespace Chapter

/-- A blank text has no fences. -/
theorem fenced_of_allBlank {t : Text} (h : Text.allBlank t = true) : Fence.fenced t = [] := by
  refine Fence.Plain.fencedFrom fun l hl => Fence.opener?_of_allBlank ?_
  exact List.all_eq_true.mpr fun c hc =>
    List.all_eq_true.mp h c (Text.of_mem_of_mem_lines hl hc).1

theorem flatMap_fenced_filter (ss : List Text) :
    (ss.filter fun s => !Text.allBlank s).flatMap Fence.fenced = ss.flatMap Fence.fenced := by
  induction ss with
  | nil => rfl
  | cons s ss ih =>
    rw [List.filter_cons]
    cases hs : Text.allBlank s with
    | true => simpa [fenced_of_allBlank hs] using ih
    | false => simpa using ih

theorem flatMap_fenced_sources (t : Text) : (sources t).flatMap Fence.fenced = Fence.fenced t := by
  have hdivision : Division (Text.lines t) (groups (Fence.scan (Text.lines t))) :=
    division_iff.mpr rfl
  have hgroup : ∀ g ∈ groups (Fence.scan (Text.lines t)),
      Fence.fenced (Text.joinLines g) = Fence.fencedFrom .normal g := fun g hg =>
    Fence.fenced_joinLines fun l hl => Text.newline_not_mem_lines (hdivision.mem_of_mem g hg l hl)
  calc
    (sources t).flatMap Fence.fenced =
        (groups (Fence.scan (Text.lines t))).flatMap fun g => Fence.fenced (Text.joinLines g) := by
      rw [sources,flatMap_fenced_filter,List.flatMap_map]
    _ = (groups (Fence.scan (Text.lines t))).flatMap (Fence.fencedFrom .normal) :=
      congrArg List.flatten (List.map_congr_left hgroup)
    _ = Fence.fenced t := hdivision.flatMap_fencedFrom

end Chapter

namespace Fence

/-- Every stage on source text keeps the lines of fences, one for one and in order. -/
theorem stages_keep_fenced (t : Text) :
    fenced (Footnote.extract t).2 = fenced t ∧ fenced (Figure.expand t) = fenced t ∧
      (Chapter.sources t).flatMap fenced = fenced t :=
  ⟨Footnote.fenced_extract t,Figure.fenced_expand t,Chapter.flatMap_fenced_sources t⟩

end Fence
end Longform
