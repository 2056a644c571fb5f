import Longform.Address.Basic
import Longform.Proofs.Outcome

/-! The fault of writing an address: two halves in it make a pair, which has no bytes. -/
namespace Longform.Address

theorem encode_error {t : Text} {e : Fault} (h : encode t = .error e) :
    e = .encoding ∧ ∃ a b, [a,b] <:+: t ∧ Text.isFirstHalf a = true ∧ Text.isSecondHalf b = true := by
  have hlift : ∀ (front : Text) {r : Text}, (∃ a b, [a,b] <:+: r ∧ Text.isFirstHalf a = true ∧
      Text.isSecondHalf b = true) → ∃ a b, [a,b] <:+: front ++ r ∧ Text.isFirstHalf a = true ∧
        Text.isSecondHalf b = true := fun front _ ⟨a,b,hin,hpair⟩ =>
    ⟨a,b,hin.trans (List.suffix_append _ _).isInfix,hpair⟩
  fun_induction encode t with
  | case1 => cases h
  | case2 a b r _ ih => exact (ih (map_eq_error_iff.mp h)).imp_right (hlift ['%',a,b])
  | case3 a b r _ ih => exact (ih (map_eq_error_iff.mp h)).imp_right (hlift ['%'])
  | case4 c r _ hpair =>
    cases h
    rw [Bool.and_eq_true] at hpair
    obtain ⟨hc,hr⟩ := hpair
    cases r with
    | nil => cases hr
    | cons b r => exact ⟨rfl,c,b,⟨[],r,rfl⟩,hc,hr⟩
  | case5 c r _ _ ih => exact (ih (map_eq_error_iff.mp h)).imp_right (hlift [c])

theorem written_error {t : Text} {e : Fault} (h : written t = .error e) : e = .encoding :=
  (encode_error h).1

end Longform.Address
