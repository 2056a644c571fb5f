import Longform.Proofs.Chapter.Division

/-! Joining sources and splitting them again. Sources that a split can give are given back whatever
they hold; an open fence is harmless in the last one only. -/
namespace Longform
namespace Chapter

instance (xs : List (Text × Bool)) : Decidable (Unseparated xs) :=
  inferInstanceAs (Decidable (∀ x ∈ xs, x.2 = false → isSeparator x.1 = false))

/-- Sources that a split can give. -/
structure Joinable (ss : List Text) : Prop where
  solid : ∀ s ∈ ss, Text.allBlank s = false
  whole : ∀ s ∈ ss, Unseparated (Fence.scan (Text.lines s))
  closed : ∀ s ∈ ss.dropLast, Fence.stateAfter .normal (Text.lines s) = .normal

/-- Joined sources are divided where they were joined. -/
theorem division_joinSources {ss : List Text} (hne : ss ≠ [])
    (hwhole : ∀ s ∈ ss, Unseparated (Fence.scan (Text.lines s)))
    (hclosed : ∀ s ∈ ss.dropLast, Fence.stateAfter .normal (Text.lines s) = .normal) :
    Division (Text.lines (joinSources ss)) (ss.map Text.lines) := by
  induction ss with
  | nil => exact absurd rfl hne
  | cons s ss ih =>
    rw [List.forall_mem_cons] at hwhole
    rcases ss with _ | ⟨u,us⟩
    · exact .last hwhole.1
    · have hnext := List.cons_ne_nil u us
      rw [List.dropLast_cons_of_ne_nil hnext,List.forall_mem_cons] at hclosed
      have htail := ih hnext hwhole.2 hclosed.2
      have hjoin : joinSources (s::u::us) =
          s ++ '\n' :: (separator ++ '\n' :: joinSources (u::us)) := by
        simp [joinSources,Text.join,separator]
      rw [hjoin,Text.lines_append_newline,Text.lines_append_newline,
        Text.lines_of_not_mem (t:=separator) (by decide),List.singleton_append]
      exact .cut hwhole.1 hclosed.1 (by decide) htail

theorem Joinable.sources_eq {ss : List Text} (h : Joinable ss) : sources (joinSources ss) = ss := by
  by_cases hne : ss = []
  · subst hne
    rfl
  · have hgroups := (division_joinSources hne h.whole h.closed).groups_scan
    have hback : Text.joinLines ∘ Text.lines = id := funext Text.joinLines_lines
    rw [sources,hgroups,List.map_map,hback,List.map_id]
    exact List.filter_eq_self.mpr fun s hs => by simp [h.solid s hs]

theorem sublist_dropLast {α : Type} {xs ys : List α} (h : xs.Sublist ys) :
    xs.dropLast.Sublist ys.dropLast := by
  have htail := h.reverse.tail
  rwa [List.tail_reverse,List.tail_reverse,List.reverse_sublist] at htail

/-- A source with anything in it keeps the lines of its group. -/
theorem lines_of_mem_sources {t : Text} {g : List Text}
    (hg : g ∈ groups (Fence.scan (Text.lines t)))
    (hsolid : Text.allBlank (Text.joinLines g) = false) :
    Text.lines (Text.joinLines g) = g := by
  refine Text.lines_joinLines ?_ fun l hl =>
    Text.newline_not_mem_lines ((division_iff.mpr rfl).mem_of_mem g hg l hl)
  rintro rfl
  exact absurd hsolid (by decide)

theorem joinable_sources (t : Text) : Joinable (sources t) := by
  have hdivision : Division (Text.lines t) (groups (Fence.scan (Text.lines t))) :=
    division_iff.mpr rfl
  have hsolid : ∀ s ∈ sources t, Text.allBlank s = false := fun s hs => by
    simpa using (List.mem_filter.mp hs).2
  refine ⟨hsolid,fun s hs => ?_,fun s hs => ?_⟩
  · obtain ⟨g,hg,rfl⟩ := List.mem_map.mp (List.mem_filter.mp hs).1
    rw [lines_of_mem_sources hg (hsolid _ hs)]
    exact hdivision.unseparated g hg
  · have hlast := (sublist_dropLast List.filter_sublist).subset hs
    rw [← List.map_dropLast] at hlast
    obtain ⟨g,hg,rfl⟩ := List.mem_map.mp hlast
    rw [lines_of_mem_sources (List.dropLast_subset _ hg) (hsolid _ (List.dropLast_subset _ hs))]
    exact hdivision.closed g hg

/-- Splitting undoes joining, on the sources of any text and on all that could be such. -/
theorem sources_joinSources : (∀ t, sources (joinSources (sources t)) = sources t) ∧
    ∀ ss, Joinable ss → sources (joinSources ss) = ss :=
  ⟨fun t => (joinable_sources t).sources_eq,fun _ h => h.sources_eq⟩

theorem sources_joinSources_three :
    let ss := ["a\n~~~\n---\n~~~ ".toList," ---x".toList,"b\n\x60\x60\x60\n---".toList]
    Joinable ss ∧ sources (joinSources ss) = ss := by
  have h : Joinable ["a\n~~~\n---\n~~~ ".toList," ---x".toList,"b\n\x60\x60\x60\n---".toList] :=
    ⟨by decide,by decide,by decide⟩
  exact ⟨h,sources_joinSources.2 _ h⟩

end Chapter
end Longform
