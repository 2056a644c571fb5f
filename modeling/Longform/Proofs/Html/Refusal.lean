import Longform.Html.Parse
import Longform.Proofs.Decimal.Whole
import Longform.Proofs.Outcome

/-! Why markup is not read: a marked section of an unknown kind, or a number with too many figures in a
reference. Each construct hands on what is read in it. -/
namespace Longform.Html

open Decimal

theorem value_error {m : Numeral} {e : Fault} (h : m.value = .error e) : TooLong e := by
  unfold Numeral.value at h
  split at h
  · split at h
    · cases h
      exact .read ‹_›
    · cases h
  · cases h

theorem unescapeFrom_error {fuel : Nat} {t : Text} {e : Fault} (h : unescapeFrom fuel t = .error e) :
    TooLong e := by
  fun_induction unescapeFrom fuel t with
  | case1 => cases h
  | case2 => cases h
  | case3 _ _ _ _ ih => exact ih (map_eq_error_iff.mp h)
  | case4 _ _ _ _ _ _ _ ih =>
    rcases bind_eq_error_iff.mp h with h | ⟨_,_,h⟩
    · exact value_error h
    · exact ih (map_eq_error_iff.mp h)
  | case5 _ _ _ _ _ ih => exact ih (map_eq_error_iff.mp h)
  | case6 fuel c r _ chars rest hnamed _ ih =>
    have hrest : (unescapeFrom fuel (named r).2).map ((named r).1 ++ ·) = .error e := h
    rw [hnamed] at hrest
    exact ih (map_eq_error_iff.mp hrest)

theorem unescape_error {t : Text} {e : Fault} (h : unescape t = .error e) : TooLong e :=
  unescapeFrom_error h

theorem attributes_error {o : Opening} {e : Fault} (h : o.attributes = .error e) : TooLong e := by
  obtain ⟨w,-,hw⟩ := exists_of_mapM_error (map_eq_error_iff.mp h)
  have htext := map_eq_error_iff.mp hw
  unfold Written.text at htext
  split at htext
  · cases htext
  · exact unescape_error htext

/-- The faults of markup that is not read. -/
def IsRefusal (e : Fault) : Prop := e = .markup ∨ TooLong e

/-- A construct is refused for one of them only. -/
def Look.IsAllowed : Look → Prop
  | .refused e => IsRefusal e
  | _ => True

def Step.IsAllowed : Step → Prop
  | .refused e => IsRefusal e
  | _ => True

section Constructs

variable {r : Reader}

theorem isAllowed_look {o : Opening} {make : Dictionary Text → Reader} : (o.look make).IsAllowed := by
  unfold Opening.look
  split
  · trivial
  · exact .inr (attributes_error ‹_›)

theorem isAllowed_readStart (t : Text) : (readStart r t).IsAllowed := by
  unfold readStart
  simp only
  split
  · exact isAllowed_look
  · exact isAllowed_look
  · trivial
  · exact isAllowed_look

theorem isAllowed_marked (kind : TextKind) (parts : Option (Text × Text)) :
    (r.marked kind parts).IsAllowed := by
  unfold Reader.marked
  split <;> trivial

theorem isAllowed_readEnd (t : Text) : (readEnd r t).IsAllowed := by
  unfold readEnd
  split
  · trivial
  simp only
  split
  · split <;> trivial
  split
  · trivial
  split
  · trivial
  split
  · trivial
  · exact isAllowed_marked _ _

theorem isAllowed_readSection (t : Text) : (readSection r t).IsAllowed := by
  unfold readSection
  split
  · trivial
  split
  · exact .inl rfl
  simp only
  split
  · trivial
  split
  · exact .inl rfl
  split
  · trivial
  split <;> exact isAllowed_marked _ _

theorem isAllowed_readDeclaration (t : Text) : (readDeclaration r t).IsAllowed := by
  unfold readDeclaration
  split
  · exact isAllowed_marked _ _
  · exact isAllowed_readSection _
  split
  · split
    · trivial
    · exact isAllowed_marked _ _
  · exact isAllowed_marked _ _

theorem isAllowed_readAngle {look : Look} (h : readAngle r = some look) : look.IsAllowed := by
  unfold readAngle at h
  split at h
  · split at h
    · exact Option.some.inj h ▸ isAllowed_readStart _
    split at h
    · exact Option.some.inj h ▸ isAllowed_readEnd _
    split at h
    · exact Option.some.inj h ▸ isAllowed_readDeclaration _
    split at h
    · exact Option.some.inj h ▸ isAllowed_marked _ _
    · cases h
      trivial
  · cases h

theorem isAllowed_readReference (final : Bool) : (readReference final r).IsAllowed := by
  unfold readReference
  simp only
  split
  · split
    · split
      · trivial
      · exact .inr (value_error ‹_›)
    · trivial
  · split
    · trivial
    split
    · trivial
    split <;> trivial
  · trivial

theorem isAllowed_step (final : Bool) : (step final r).IsAllowed := by
  unfold step
  split
  · trivial
  simp only
  split
  · trivial
  split
  · exact isAllowed_readReference final
  split
  · trivial
  · trivial
  · exact isAllowed_readAngle ‹_›
  · split <;> trivial

theorem readFrom_error {final : Bool} {fuel : Nat} {e : Fault} (h : readFrom final fuel r = .error e) :
    IsRefusal e := by
  induction fuel generalizing r with
  | zero => cases h
  | succ fuel ih =>
    rw [readFrom] at h
    have hallowed := isAllowed_step (r:=r) final
    split at h
    · cases h
    split at h
    · cases h
      rename_i hrefused
      rw [hrefused] at hallowed
      exact hallowed
    · cases h
    · exact ih h

end Constructs

/-- Markup is refused only for a marked section or for a number. -/
theorem parse_error {t : Text} {e : Fault} (h : parse t = .error e) : e = .markup ∨ TooLong e := by
  unfold parse at h
  rcases bind_eq_error_iff.mp h with h | ⟨_,_,h⟩
  · exact readFrom_error h
  rcases bind_eq_error_iff.mp h with h | ⟨_,_,h⟩
  · exact readFrom_error h
  · cases h

end Longform.Html
