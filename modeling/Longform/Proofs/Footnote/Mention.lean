import Longform.Html.Tree
import Longform.Proofs.Footnote.Linking

/-! What a text mentions, read from left to right. Line breaks around a text and blanks that are put
together make no reference and break none. -/
namespace Longform
namespace Footnote

theorem length_of_reference? {t id rest : Text} (h : reference? t = some (id,rest)) :
    rest.length < t.length := by
  rw [eq_mark_append h]
  simp [mark]
  omega

theorem ids_piecesFrom_of_le {known : Text → Bool} {m n : Nat} {t : Text} (hm : t.length ≤ m)
    (hn : t.length ≤ n) :
    (piecesFrom known m t).filterMap Piece.id? = (piecesFrom known n t).filterMap Piece.id? := by
  induction m generalizing n t with
  | zero =>
    obtain rfl : t = [] := List.eq_nil_of_length_eq_zero (Nat.le_zero.mp hm)
    cases n <;> rfl
  | succ m ih =>
    cases t with
    | nil => cases n <;> rfl
    | cons c r =>
      obtain ⟨n,rfl⟩ : ∃ k, n = k + 1 := ⟨n - 1,by simp at hn; omega⟩
      simp only [List.length_cons] at hm hn
      rw [piecesFrom,piecesFrom]
      split
      · rename_i id rest hread
        have hlt := length_of_reference? hread
        simp only [List.length_cons] at hlt
        have hsame := ih (n:=n) (t:=rest) (by omega) (by omega)
        split
        · simp [Piece.id?,hsame]
        · simp [ids_prepend,hsame]
      · rw [ids_prepend,ids_prepend]
        exact ih (by omega) (by omega)

@[simp] theorem mentions_nil : mentions [] = [] := rfl

theorem mentions_of_reference? {t id rest : Text} (h : reference? t = some (id,rest)) :
    mentions t = id::mentions rest := by
  cases t with
  | nil => cases h
  | cons c r =>
    have hlt := length_of_reference? h
    simp only [List.length_cons] at hlt
    have hrest : (piecesFrom (fun _ => true) r.length rest).filterMap Piece.id? =
        (piecesFrom (fun _ => true) rest.length rest).filterMap Piece.id? :=
      ids_piecesFrom_of_le (by omega) Nat.le.refl
    unfold mentions pieces
    rw [List.length_cons,piecesFrom]
    simp only [h,if_true,List.filterMap_cons,Piece.id?,hrest]

theorem mentions_cons {c : Char} {r : Text} (h : reference? (c::r) = none) :
    mentions (c::r) = mentions r := by
  unfold mentions pieces
  rw [List.length_cons,piecesFrom]
  simp only [h,ids_prepend]

theorem reference?_cons_of_ne {c : Char} (h : c ≠ '[') (r : Text) : reference? (c::r) = none := by
  have hafter : Text.after? "[^".toList (c::r) = none := by
    show (if '[' = c then _ else none) = none
    rw [if_neg (Ne.symm h)]
  rw [reference?,hafter]

/-- A text without opening brackets mentions nothing. -/
theorem mentions_eq_nil {t : Text} (h : '[' ∉ t) : mentions t = [] := by
  induction t with
  | nil => rfl
  | cons c t ih =>
    rw [List.mem_cons,not_or] at h
    rw [mentions_cons (reference?_cons_of_ne (Ne.symm h.1) t),ih h.2]

theorem cutAt_append_right {c sep : Char} (hc : c ≠ sep) (t : Text) :
    Text.cutAt sep (t ++ [c]) = (Text.cutAt sep t).map fun (a,b) => (a,b ++ [c]) := by
  induction t with
  | nil => simp [Text.cutAt,hc]
  | cons d t ih =>
    rw [List.cons_append,Text.cutAt,Text.cutAt]
    split
    · rfl
    · rw [ih]
      cases Text.cutAt sep t <;> rfl

/-- A line break behind a text does not close a reference. -/
theorem reference?_append_newline {t : Text} (ht : t ≠ []) :
    reference? (t ++ ['\n']) = (reference? t).map fun (id,rest) => (id,rest ++ ['\n']) := by
  match t,ht with
  | [c],_ =>
    by_cases hc : c = '['
    · subst hc
      rfl
    · rw [reference?_cons_of_ne hc]
      exact reference?_cons_of_ne hc ['\n']
  | c::d::r,_ =>
    by_cases hcd : c = '[' ∧ d = '^'
    · obtain ⟨rfl,rfl⟩ := hcd
      have hcut := cutAt_append_right (by decide : '\n' ≠ ']') r
      show (Text.cutAt ']' (r ++ ['\n'])).filter _ = ((Text.cutAt ']' r).filter _).map _
      rw [hcut]
      cases Text.cutAt ']' r with
      | none => rfl
      | some p => cases hp : p.1.isEmpty <;> simp [Option.filter,hp]
    · have hafter : ∀ u, Text.after? "[^".toList (c::d::u) = none := by
        intro u
        show (if '[' = c then (if '^' = d then some u else none) else none) = none
        by_cases hc : '[' = c
        · rw [if_pos hc,if_neg fun hd => hcd ⟨hc.symm,hd.symm⟩]
        · rw [if_neg hc]
      rw [reference?,reference?,List.cons_append,List.cons_append,hafter,hafter]
      rfl

theorem mentions_append_newline (t : Text) : mentions (t ++ ['\n']) = mentions t := by
  induction hlength : t.length using Nat.strongRecOn generalizing t with
  | _ n ih =>
    subst hlength
    cases t with
    | nil => exact mentions_eq_nil (by decide)
    | cons c r =>
      have hbreak := reference?_append_newline (List.cons_ne_nil c r)
      cases hread : reference? (c::r) with
      | some found =>
        obtain ⟨id,rest⟩ := found
        rw [hread] at hbreak
        rw [mentions_of_reference? hbreak,mentions_of_reference? hread,
          ih rest.length (length_of_reference? hread) rest rfl]
      | none =>
        rw [hread] at hbreak
        have hrest := ih r.length (by simp) r rfl
        rw [List.cons_append] at hbreak ⊢
        rw [mentions_cons hbreak,mentions_cons hread,hrest]

theorem mentions_newline_cons (t : Text) : mentions ('\n' :: t) = mentions t :=
  mentions_cons (reference?_cons_of_ne (by decide) t)

theorem mentions_squeeze (t : Text) : mentions (Html.Builder.squeeze t) = mentions t := by
  unfold Html.Builder.squeeze
  split
  · rename_i hall
    have hnone : '[' ∉ t := fun hmem => absurd (List.all_eq_true.mp hall _ hmem) (by decide)
    rw [mentions_eq_nil hnone]
    split <;> exact mentions_eq_nil (by decide)
  · rfl

end Footnote
end Longform
