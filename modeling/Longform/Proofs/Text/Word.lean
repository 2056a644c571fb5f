import Longform.Text.Basic
import Longform.Text.Letter

/-! Characters of words and blanks. The table of letters and the ranges of blanks are apart. -/
namespace Longform
namespace Text

theorem toNat_of_isDigit {c : Char} (h : c.isDigit = true) : 48 ≤ c.toNat ∧ c.toNat ≤ 57 :=
  (Bool.and_eq_true_iff.mp h).imp of_decide_eq_true of_decide_eq_true

theorem toNat_of_isAlpha {c : Char} (h : c.isAlpha = true) :
    65 ≤ c.toNat ∧ c.toNat ≤ 90 ∨ 97 ≤ c.toNat ∧ c.toNat ≤ 122 := by
  have hcases : c.isUpper = true ∨ c.isLower = true := Bool.or_eq_true_iff.mp h
  rcases hcases with hupper | hlower
  · exact .inl (of_decide_eq_true hupper)
  · exact .inr ((Bool.and_eq_true_iff.mp hlower).imp of_decide_eq_true of_decide_eq_true)

/-- The code points of blanks beyond ASCII. -/
def blankRanges : List (Nat × Nat) := [(0x85,0x85),(0xA0,0xA0),(0x1680,0x1680),(0x2000,0x200A),
  (0x2028,0x2029),(0x202F,0x202F),(0x205F,0x205F),(0x3000,0x3000)]

theorem inRanges_eq_false {n : Nat} {ranges : List (Nat × Nat)}
    (h : ∀ r ∈ ranges, n < r.1 ∨ r.2 < n) : inRanges n ranges = false := by
  induction ranges with
  | nil => rfl
  | cons r ranges ih =>
    rw [List.forall_mem_cons] at h
    obtain ⟨lo,hi⟩ := r
    rw [inRanges]
    split
    · rfl
    · have hhi : ¬n ≤ hi := by
        have hr := h.1
        simp only at hr
        omega
      rw [ih h.2,decide_eq_false hhi]
      rfl

theorem mem_blankRanges_of_isBlank {c : Char} (h : isBlank c = true) (hascii : 128 ≤ c.toNat) :
    ∃ r ∈ blankRanges, r.1 ≤ c.toNat ∧ c.toNat ≤ r.2 := by
  simp only [isBlank,Bool.or_eq_true,Bool.and_eq_true,decide_eq_true_eq,beq_iff_eq] at h
  simp only [blankRanges,List.mem_cons,List.not_mem_nil,or_false,exists_eq_or_imp,exists_eq_left]
  omega

/-- A blank is no character of a word. -/
theorem isWord_of_isBlank {c : Char} (h : isBlank c = true) : isWord c = false := by
  by_cases hascii : c.toNat < 128
  · have hall : ∀ n < 128, isBlank (Char.ofNat n) = true → isWord (Char.ofNat n) = false := by decide
    have hc := hall c.toNat hascii
    rw [Char.ofNat_toNat] at hc
    exact hc h
  · obtain ⟨b,hb,hlo,hhi⟩ := mem_blankRanges_of_isBlank h (Nat.not_lt.mp hascii)
    have hapart : (blankRanges.all fun b => letterRanges.all fun r =>
        Nat.blt b.2 r.1 || Nat.blt r.2 b.1) = true := by decide +kernel
    have hletters : inRanges c.toNat letterRanges = false := by
      refine inRanges_eq_false fun r hr => ?_
      have hsides := List.all_eq_true.mp (List.all_eq_true.mp hapart b hb) r hr
      simp only [Bool.or_eq_true,Nat.blt_eq] at hsides
      omega
    have hne : c ≠ '_' := by
      rintro rfl
      exact hascii (by decide)
    rw [isWord,isLetterOrNumber,if_neg hascii,hletters,decide_eq_false hne]
    rfl

end Text
end Longform
