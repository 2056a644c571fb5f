import Longform.Html.Node
import Longform.Html.Reference

/-! Texts written with references. What the writers of markup make of a text is read back as that
text, in attribute values as in content. -/
namespace Longform.Html

/-- The references that the writers use, each with its character. -/
def references : Dictionary Char := [("&amp;".toList,'&'),("&lt;".toList,'<'),("&gt;".toList,'>'),
  ("&quot;".toList,'"'),("&#x27;".toList,'\'')]

/-- How a text is written: a character stands for itself, the ampersand excepted, or is written as a
reference. -/
inductive Spells : Text → Text → Prop
  | nil : Spells [] []
  | char {c : Char} {s t : Text} (plain : c ≠ '&') : Spells s t → Spells (c::s) (c::t)
  | reference {r : Text} {c : Char} {s t : Text} (known : (r,c) ∈ references) :
      Spells s t → Spells (r ++ s) (c::t)

theorem Spells.append {s s' t t' : Text} (h : Spells s t) (h' : Spells s' t') :
    Spells (s ++ s') (t ++ t') := by
  induction h with
  | nil => exact h'
  | char plain _ ih => exact .char plain ih
  | reference known _ ih =>
    rw [List.append_assoc]
    exact .reference known ih

/-- A text without ampersands can stand as it is. -/
theorem spells_self {t : Text} (h : '&' ∉ t) : Spells t t := by
  induction t with
  | nil => exact .nil
  | cons c t ih =>
    rw [List.mem_cons,not_or] at h
    exact .char (Ne.symm h.1) (ih h.2)

/-- What is written character by character spells the text. -/
theorem spells_flatMap {f : Char → Text} (h : ∀ c, Spells (f c) [c]) (t : Text) :
    Spells (t.flatMap f) t := by
  induction t with
  | nil => exact .nil
  | cons c t ih =>
    rw [List.flatMap_cons]
    exact (h c).append ih

theorem spells_reference {r : Text} {c : Char} (h : (r,c) ∈ references) : Spells r [c] := by
  simpa using Spells.reference h .nil

theorem spells_char {c : Char} (h : c ≠ '&') : Spells [c] [c] := .char h .nil

theorem spells_escapeContentChar (c : Char) : Spells (Text.escapeContentChar c) [c] := by
  unfold Text.escapeContentChar
  split
  · subst c; exact spells_reference (by simp [references])
  split
  · subst c; exact spells_reference (by simp [references])
  split
  · subst c; exact spells_reference (by simp [references])
  · exact spells_char ‹_›

theorem spells_escapeContent (t : Text) : Spells (Text.escapeContent t) t :=
  spells_flatMap spells_escapeContentChar t

theorem spells_escapeAttribute (t : Text) : Spells (Text.escapeAttribute t) t := by
  refine spells_flatMap (fun c => ?_) t
  unfold Text.escapeAttributeChar
  split
  · subst c; exact spells_reference (by simp [references])
  split
  · subst c; exact spells_reference (by simp [references])
  · exact spells_escapeContentChar c

theorem unescapeFrom_reference {r : Text} {c : Char} (h : (r,c) ∈ references) (fuel : Nat)
    (s : Text) : unescapeFrom (fuel+1) (r ++ s) = (unescapeFrom fuel s).map (c :: ·) := by
  simp only [references,List.mem_cons,Prod.mk.injEq,List.not_mem_nil,or_false] at h
  rcases h with ⟨rfl,rfl⟩ | ⟨rfl,rfl⟩ | ⟨rfl,rfl⟩ | ⟨rfl,rfl⟩ | ⟨rfl,rfl⟩ <;> rfl

theorem unescapeFrom_of_spells {s t : Text} (h : Spells s t) {fuel : Nat} (hfuel : s.length ≤ fuel) :
    unescapeFrom fuel s = .ok t := by
  induction h generalizing fuel with
  | nil => cases fuel <;> rfl
  | @char c s t plain _ ih =>
    obtain ⟨fuel,rfl⟩ : ∃ n, fuel = n + 1 := ⟨fuel - 1,by simp at hfuel; omega⟩
    simp only [List.length_cons] at hfuel
    rw [unescapeFrom.eq_def]
    simp only [if_pos plain,ih (Nat.le_of_succ_le_succ hfuel)]
    rfl
  | @reference r c s t known _ ih =>
    have hr : 0 < r.length := by
      simp only [references,List.mem_cons,Prod.mk.injEq,List.not_mem_nil,or_false] at known
      rcases known with ⟨rfl,-⟩ | ⟨rfl,-⟩ | ⟨rfl,-⟩ | ⟨rfl,-⟩ | ⟨rfl,-⟩ <;> decide
    simp only [List.length_append] at hfuel
    obtain ⟨fuel,rfl⟩ : ∃ n, fuel = n + 1 := ⟨fuel - 1,by omega⟩
    rw [unescapeFrom_reference known,ih (by omega)]
    rfl

/-- What spells a value is read as that value. -/
theorem unescape_of_spells {s t : Text} (h : Spells s t) : unescape s = .ok t :=
  unescapeFrom_of_spells h Nat.le.refl

/-! References behind characters that are none. -/

theorem unescapeFrom_append {p t : Text} (h : '&' ∉ p) (fuel : Nat) :
    unescapeFrom (p.length + fuel) (p ++ t) = (unescapeFrom fuel t).map (p ++ ·) := by
  induction p with
  | nil =>
    rw [List.length_nil,Nat.zero_add,List.nil_append]
    cases unescapeFrom fuel t <;> rfl
  | cons c p ih =>
    rw [List.mem_cons,not_or] at h
    rw [List.length_cons,Nat.add_right_comm,List.cons_append,unescapeFrom.eq_def]
    simp only [if_pos (Ne.symm h.1),ih h.2]
    cases unescapeFrom fuel t <;> rfl

theorem unescape_append {p : Text} (h : '&' ∉ p) (t : Text) :
    unescape (p ++ t) = (unescape t).map (p ++ ·) := by
  rw [unescape,List.length_append,unescapeFrom_append h,unescape]

end Longform.Html
