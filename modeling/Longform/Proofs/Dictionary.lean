import Mathlib.Data.List.Induction
import Longform.Dictionary

/-! Laws of dictionaries. Setting a key changes what is found under it and nothing else, and a merge
finds the entries of the second dictionary before those of the first. -/
namespace Longform
namespace Dictionary
variable {α : Type} {k j : Text} {d e : Dictionary α}

@[simp] theorem keys_nil : keys ([] : Dictionary α) = [] := rfl
@[simp] theorem keys_cons (entry : Text × α) : keys (entry::d) = entry.1 :: keys d := rfl
theorem keys_append (d e : Dictionary α) : keys (d ++ e) = keys d ++ keys e := List.map_append

theorem set_of_not_mem (v : α) (h : k ∉ keys d) : set k v d = d ++ [(k,v)] := by
  induction d with
  | nil => rfl
  | cons entry d ih =>
    simp only [keys_cons,List.mem_cons,not_or] at h
    rw [set,if_neg (Ne.symm h.1),ih h.2,List.cons_append]

theorem keys_set_of_mem (v : α) (h : k ∈ keys d) : keys (set k v d) = keys d := by
  induction d with
  | nil => simp at h
  | cons entry d ih =>
    rw [set]
    split
    · rfl
    · rename_i hne
      have hd : k ∈ keys d := by simpa [Ne.symm hne] using h
      simp [ih hd]

/-- Which keys there are does not depend on the values. -/
theorem keys_set_congr (v w : α) (h : keys d = keys e) : keys (set k v d) = keys (set k w e) := by
  by_cases hk : k ∈ keys d
  · rw [keys_set_of_mem v hk,keys_set_of_mem w (h ▸ hk),h]
  · rw [set_of_not_mem v hk,set_of_not_mem w (h ▸ hk),keys_append,keys_append,h]
    rfl

/-- A key that is set comes behind those that were set before, unless it is one of them. -/
theorem keys_set_of_eraseDups {ks : List Text} (v : α) (h : keys d = ks.eraseDups) :
    keys (set k v d) = (ks ++ [k]).eraseDups := by
  have hmem : k ∈ keys d ↔ k ∈ ks := by rw [h,List.mem_eraseDups]
  rw [List.eraseDups_append]
  by_cases hk : k ∈ ks
  · rw [keys_set_of_mem v (hmem.mpr hk),h]
    simp [List.removeAll,hk]
  · rw [set_of_not_mem v (mt hmem.mp hk),keys_append,h]
    simp [List.removeAll,hk,List.eraseDups_cons]

theorem mem_keys_set (v : α) : j ∈ keys (set k v d) ↔ j = k ∨ j ∈ keys d := by
  by_cases h : k ∈ keys d
  · rw [keys_set_of_mem v h]
    constructor
    · exact Or.inr
    · rintro (rfl | hj) <;> assumption
  · rw [set_of_not_mem v h]
    simp [keys,or_comm]

theorem mem_set {v : α} {entry : Text × α} (h : entry ∈ set k v d) : entry.1 = k ∨ entry ∈ d := by
  induction d with
  | nil =>
    rw [set,List.mem_singleton] at h
    exact .inl (h ▸ rfl)
  | cons first d ih =>
    rw [set] at h
    split at h
    · rename_i hk
      rcases List.mem_cons.mp h with rfl | h
      · exact .inl hk
      · exact .inr (List.mem_cons_of_mem _ h)
    · rcases List.mem_cons.mp h with rfl | h
      · exact .inr List.mem_cons_self
      · exact (ih h).imp id (List.mem_cons_of_mem _)

theorem nodup_keys_set (v : α) (h : (keys d).Nodup) : (keys (set k v d)).Nodup := by
  by_cases hk : k ∈ keys d
  · rwa [keys_set_of_mem v hk]
  · rw [set_of_not_mem v hk]
    simpa [keys,List.nodup_append] using ⟨h,fun a b hab heq => hk (heq ▸ List.mem_map_of_mem hab)⟩

theorem set_set (v w : α) : set k v (set k w d) = set k v d := by
  induction d with
  | nil => simp [set]
  | cons entry d ih =>
    by_cases h : entry.1 = k <;> simp [set,h,ih]

/-- A key that is there keeps its place, so the order of setting does not matter. -/
theorem set_comm (v w : α) (hne : k ≠ j) (h : k ∈ keys d) :
    set k v (set j w d) = set j w (set k v d) := by
  induction d with
  | nil => simp at h
  | cons entry d ih =>
    by_cases hk : entry.1 = k
    · have hj : entry.1 ≠ j := fun hj => hne (hk.symm.trans hj)
      simp [set,hk,hne]
    · have hd : k ∈ keys d := by simpa [Ne.symm hk] using h
      by_cases hj : entry.1 = j
      · simp [set,hj,Ne.symm hne]
      · simp [set,hk,hj,ih hd]

/-- The other entries do not change. -/
theorem filter_set {p : Text → Bool} (v : α) (h : p k = false) (d : Dictionary α) :
    (set k v d).filter (fun a => p a.1) = d.filter fun a => p a.1 := by
  induction d with
  | nil => simp [set,h]
  | cons a d ih =>
    rw [set]
    split
    · rename_i hkey
      simp [hkey,h]
    · rw [List.filter_cons,List.filter_cons,ih]

theorem find?_set_of_ne (v : α) (h : j ≠ k) : find? j (set k v d) = find? j d := by
  induction d with
  | nil => simp [set,find?,Ne.symm h]
  | cons entry d ih =>
    by_cases hk : entry.1 = k
    · simp [set,find?,hk,Ne.symm h]
    · simp [set,find?,hk,ih]

theorem find?_alter (f : Option α → α) :
    find? j (alter k f d) = if j = k then some (f (find? k d)) else find? j d := by
  split
  · rename_i hjk
    rw [hjk,alter,find?_set]
  · rename_i hjk
    rw [alter,find?_set_of_ne _ hjk]

theorem alter_alter (f g : Option α → α) :
    alter k g (alter k f d) = alter k (fun old => g (some (f old))) d := by
  rw [alter,alter,find?_set,set_set]
  rfl

theorem find?_of_not_mem (h : k ∉ keys d) : find? k d = none := by
  induction d with
  | nil => rfl
  | cons entry d ih =>
    simp only [keys_cons,List.mem_cons,not_or] at h
    rw [find?,if_neg (Ne.symm h.1),ih h.2]

theorem mem_keys_of_hasKey (h : hasKey k d = true) : k ∈ keys d := by
  by_cases hk : k ∈ keys d
  · exact hk
  · rw [hasKey,find?_of_not_mem hk] at h
    cases h

theorem exists_find? (h : k ∈ keys d) : ∃ v, find? k d = some v := by
  induction d with
  | nil => simp at h
  | cons entry d ih =>
    by_cases hk : entry.1 = k
    · exact ⟨entry.2,by rw [find?,if_pos hk]⟩
    · have hd : k ∈ keys d := by simpa [Ne.symm hk] using h
      simpa [find?,hk] using ih hd

@[simp] theorem merge_nil : merge d [] = d := rfl
@[simp] theorem merge_cons (entry : Text × α) :
    merge d (entry::e) = merge (set entry.1 entry.2 d) e := rfl

theorem mem_keys_merge (h : k ∈ keys (merge d e)) : k ∈ keys d ∨ k ∈ keys e := by
  induction e generalizing d with
  | nil => exact .inl h
  | cons entry e ih =>
    rw [merge_cons] at h
    rw [keys_cons,List.mem_cons]
    rcases ih h with hset | he
    · rcases (mem_keys_set _).mp hset with rfl | hd
      · exact .inr (.inl rfl)
      · exact .inl hd
    · exact .inr (.inr he)

theorem nodup_keys_merge (h : (keys d).Nodup) : (keys (merge d e)).Nodup := by
  induction e generalizing d with
  | nil => exact h
  | cons entry e ih => exact ih (nodup_keys_set _ h)

/-- Entries of other keys may be merged before or after. -/
theorem set_merge (v : α) (hd : k ∈ keys d) (he : k ∉ keys e) :
    set k v (merge d e) = merge (set k v d) e := by
  induction e generalizing d with
  | nil => rfl
  | cons entry e ih =>
    simp only [keys_cons,List.mem_cons,not_or] at he
    have hset : k ∈ keys (set entry.1 entry.2 d) := (mem_keys_set _).mpr (.inr hd)
    rw [merge_cons,merge_cons,ih hset he.2,set_comm v entry.2 he.1 hd]

theorem merge_set (v : α) (h : (keys e).Nodup) : merge d (set k v e) = set k v (merge d e) := by
  induction e generalizing d with
  | nil => rfl
  | cons entry e ih =>
    rw [keys_cons,List.nodup_cons] at h
    rw [set]
    split
    · rename_i hk
      subst hk
      have hmem : entry.1 ∈ keys (set entry.1 entry.2 d) := (mem_keys_set _).mpr (.inl rfl)
      rw [merge_cons,merge_cons,set_merge v hmem h.1,set_set]
    · exact ih h.2

theorem find?_merge (h : (keys e).Nodup) : find? k (merge d e) = (find? k e).or (find? k d) := by
  induction e generalizing d with
  | nil => rfl
  | cons entry e ih =>
    rw [keys_cons,List.nodup_cons] at h
    rw [merge_cons,ih h.2,find?]
    split
    · rename_i hk
      subst hk
      simp [find?_of_not_mem h.1]
    · rename_i hk
      rw [find?_set_of_ne _ (Ne.symm hk)]

theorem merge_append (d e e' : Dictionary α) : merge d (e ++ e') = merge (merge d e) e' :=
  List.foldl_append

theorem find?_merge_of_not_mem (h : k ∉ keys e) : find? k (merge d e) = find? k d := by
  induction e generalizing d with
  | nil => rfl
  | cons entry e ih =>
    simp only [keys_cons,List.mem_cons,not_or] at h
    rw [merge_cons,ih h.2,find?_set_of_ne _ h.1]

theorem merge_alter (f : Option α → α) (h : (keys e).Nodup) (hk : k ∈ keys e) :
    merge d (alter k f e) = alter k f (merge d e) := by
  obtain ⟨v,hv⟩ := exists_find? hk
  rw [alter,alter,merge_set _ h,find?_merge h,hv,Option.some_or]

theorem merge_eq_append (h : (keys (d ++ e)).Nodup) : merge d e = d ++ e := by
  induction e generalizing d with
  | nil => simp
  | cons entry e ih =>
    have hnot : entry.1 ∉ keys d := by
      rw [keys_append] at h
      exact fun hmem => (List.nodup_append.mp h).2.2 _ hmem _ List.mem_cons_self rfl
    have hmove : d ++ entry::e = (d ++ [entry]) ++ e := by simp
    rw [merge_cons,set_of_not_mem _ hnot,hmove]
    exact ih (hmove ▸ h)

/-- Entries without repetition are a dictionary as they stand. -/
theorem ofEntries_of_nodup (h : (keys d).Nodup) : ofEntries d = d := merge_eq_append (d:=[]) h

theorem mem_keys_ofEntries (h : k ∈ keys (ofEntries d)) : k ∈ keys d :=
  (mem_keys_merge h).resolve_left List.not_mem_nil

theorem ofEntries_append (es es' : List (Text × α)) :
    ofEntries (es ++ es') = merge (ofEntries es) es' := merge_append [] es es'

/-- The keys of entries set one after the other, in order of first occurrence. -/
theorem keys_ofEntries (es : List (Text × α)) : keys (ofEntries es) = (keys es).eraseDups := by
  induction es using List.reverseRecOn with
  | nil => rfl
  | append_singleton es entry ih =>
    have hset : ofEntries (es ++ [entry]) = set entry.1 entry.2 (ofEntries es) :=
      ofEntries_append es [entry]
    rw [hset,keys_append,keys_set_of_eraseDups _ ih]
    rfl

theorem nodup_keys_ofEntries (d : List (Text × α)) : (keys (ofEntries d)).Nodup :=
  nodup_keys_merge List.nodup_nil

theorem ofEntries_eq_nil_iff {es : List (Text × α)} : ofEntries es = [] ↔ es = [] := by
  constructor
  · intro h
    have hkeys := keys_ofEntries es
    rw [h] at hkeys
    cases es with
    | nil => rfl
    | cons entry es =>
      have hmem : entry.1 ∈ (keys (entry::es)).eraseDups := List.mem_eraseDups.mpr List.mem_cons_self
      rw [← hkeys] at hmem
      cases hmem
  · rintro rfl
    rfl

/-- Entries are merged one by one or as the dictionary they make. -/
theorem merge_ofEntries (d : Dictionary α) (es : List (Text × α)) :
    merge d (ofEntries es) = merge d es := by
  induction es using List.reverseRecOn with
  | nil => rfl
  | append_singleton es entry ih =>
    calc
      merge d (ofEntries (es ++ [entry])) = merge d (set entry.1 entry.2 (ofEntries es)) := by
        rw [ofEntries_append]
        rfl
      _ = set entry.1 entry.2 (merge d es) := by rw [merge_set _ (nodup_keys_ofEntries es),ih]
      _ = merge d (es ++ [entry]) := by
        rw [merge_append]
        rfl

/-- The last value of a key is found. -/
theorem find?_ofEntries (es : List (Text × α)) :
    find? k (ofEntries es) = ((es.filter fun x => x.1 = k).getLast?).map (·.2) := by
  induction es using List.reverseRecOn with
  | nil => rfl
  | append_singleton es x ih =>
    have hset : ofEntries (es ++ [x]) = set x.1 x.2 (ofEntries es) := ofEntries_append es [x]
    rw [hset,List.filter_append,List.getLast?_append]
    by_cases hk : x.1 = k
    · subst hk
      simp
    · rw [find?_set_of_ne _ (Ne.symm hk),ih]
      simp [hk]

/-- The last value of a key wins. -/
theorem find?_ofEntries_append (es es' : List (Text × α)) (v : α) (h : k ∉ keys es') :
    find? k (ofEntries (es ++ (k,v)::es')) = some v := by
  rw [ofEntries_append,merge_cons,find?_merge_of_not_mem h,find?_set]

theorem find?_eq_some_iff {v : α} (h : (keys d).Nodup) : find? k d = some v ↔ (k,v) ∈ d := by
  induction d with
  | nil => simp [find?]
  | cons entry d ih =>
    rw [keys_cons,List.nodup_cons] at h
    rw [find?,List.mem_cons]
    split
    · rename_i hk
      subst hk
      have hnot : (entry.1,v) ∉ d := fun hmem => h.1 (List.mem_map_of_mem (f:=(·.1)) hmem)
      simp only [Option.some.injEq,hnot,or_false]
      exact ⟨fun hv => hv ▸ rfl,fun hv => (congrArg (·.2) hv).symm⟩
    · rename_i hk
      have hne : (k,v) ≠ entry := fun he => hk (congrArg (·.1) he).symm
      rw [ih h.2]
      simp [hne]

theorem find?_map_keys (ks : List Text) (f : Text → α) :
    find? k (ks.map fun j => (j,f j)) = if k ∈ ks then some (f k) else none := by
  induction ks with
  | nil => rfl
  | cons j ks ih =>
    by_cases hj : j = k
    · simp [find?,hj]
    · simp [find?,hj,Ne.symm hj,ih]

/-- Dictionaries with the same keys in the same order and the same values are the same. -/
theorem eq_of_keys_eq {v : α} (hd : (keys d).Nodup) (hkeys : keys d = keys e)
    (h : ∀ k, (find? k d).getD v = (find? k e).getD v) : d = e := by
  induction d generalizing e with
  | nil => exact (List.map_eq_nil_iff.mp hkeys.symm).symm
  | cons x d ih =>
    obtain ⟨y,e,rfl⟩ : ∃ y e', e = y::e' := by
      cases e with
      | nil => cases hkeys
      | cons y e => exact ⟨y,e,rfl⟩
    obtain ⟨hkey,htail⟩ : x.1 = y.1 ∧ keys d = keys e := List.cons.inj hkeys
    obtain ⟨hnot,hd⟩ := List.nodup_cons.mp hd
    have hvalue : x.2 = y.2 := by
      have hx := h x.1
      rwa [find?,find?,if_pos rfl,if_pos hkey.symm] at hx
    have hrest : ∀ k, (find? k d).getD v = (find? k e).getD v := fun k => by
      by_cases hk : x.1 = k
      · rw [← hk,find?_of_not_mem hnot,find?_of_not_mem (k := x.1) (d := e) (htail ▸ hnot)]
      · have hk' := h k
        rwa [find?,find?,if_neg hk,if_neg fun hy => hk (hkey.trans hy)] at hk'
    rw [ih hd htail hrest,Prod.ext hkey hvalue]

theorem find?_perm (h : d.Perm e) (hd : (keys d).Nodup) : find? k d = find? k e := by
  have he : (keys e).Nodup := (h.map _).nodup_iff.mp hd
  ext v
  rw [find?_eq_some_iff hd,find?_eq_some_iff he]
  exact h.mem_iff

theorem set_eq_self {v : α} (h : find? k d = some v) : set k v d = d := by
  induction d with
  | nil => cases h
  | cons entry d ih =>
    rw [find?] at h
    rw [set]
    split
    · rename_i hk
      rw [if_pos hk] at h
      rw [← Option.some.inj h]
    · rename_i hk
      rw [if_neg hk] at h
      rw [ih h]

theorem set_eq_self_iff {v : α} : set k v d = d ↔ find? k d = some v := by
  constructor
  · intro h
    rw [← h]
    exact find?_set k v d
  · exact set_eq_self

end Dictionary
end Longform
