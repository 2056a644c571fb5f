import Longform.Proofs.Text.Word
import Longform.Text.Percent

/-! Components of addresses. Letters, figures and nine marks stand for themselves, every other character for
the bytes of its UTF-8 form. -/
namespace Longform.Text

/-- The characters that stand for themselves. -/
def unreserved : Text :=
  "ABCDEFGHIJKLMNOPQRSTUVWXYZabcdefghijklmnopqrstuvwxyz0123456789-_.!~*'()".toList

def hexFigures : Text := "0123456789ABCDEF".toList

/-- A byte behind a percent sign, in two hexadecimal figures. -/
def byteEscape (b : UInt8) : Text :=
  ['%',hexFigures.getD (b.toNat / 16) '0',hexFigures.getD (b.toNat % 16) '0']

/-- A text as a component of an address. -/
def component (t : Text) : Text :=
  t.flatMap fun c => if c ∈ unreserved then [c] else (String.utf8EncodeChar c).flatMap byteEscape

theorem lt_of_isComponentChar {c : Char} (h : isComponentChar c = true) : c.toNat < 128 := by
  have hmarks : (['-','_','.','!','~','*','\'','(',')'].all fun m => m.toNat < 128) = true := by decide
  rw [isComponentChar,Bool.or_eq_true,decide_eq_true_eq] at h
  rcases h with h | h
  · rcases Bool.or_eq_true_iff.mp h with hletter | hdigit
    · have hrange := toNat_of_isAlpha hletter
      omega
    · have hrange := toNat_of_isDigit hdigit
      omega
  · exact of_decide_eq_true (List.all_eq_true.mp hmarks c h)

theorem isComponentChar_iff {c : Char} : isComponentChar c = true ↔ c ∈ unreserved := by
  have hall : ∀ n < 128, isComponentChar (Char.ofNat n) = decide (Char.ofNat n ∈ unreserved) := by
    decide +kernel
  have hsmall : (unreserved.all fun u => u.toNat < 128) = true := by decide +kernel
  by_cases hc : c.toNat < 128
  · have hsame := hall c.toNat hc
    rw [Char.ofNat_toNat] at hsame
    rw [hsame,decide_eq_true_eq]
  · refine iff_of_false (fun h => hc (lt_of_isComponentChar h)) fun h => hc ?_
    exact of_decide_eq_true (List.all_eq_true.mp hsmall c h)

theorem utf8_eq (c : Char) : utf8 c = (String.utf8EncodeChar c).map UInt8.toNat := by
  have hvalid : c.val.toNat < 0xD800 ∨ 0xDFFF < c.val.toNat ∧ c.val.toNat < 0x110000 := c.valid
  have hc : c.toNat = c.val.toNat := rfl
  simp only [utf8,String.utf8EncodeChar,hc]
  generalize c.val.toNat = n at hvalid
  have hone : n < 0x80 ↔ n ≤ 127 := Nat.lt_succ_iff
  have htwo : n < 0x800 ↔ n ≤ 2047 := Nat.lt_succ_iff
  have hthree : n < 0x10000 ↔ n ≤ 65535 := Nat.lt_succ_iff
  simp only [hone,htwo,hthree]
  repeat' split
  all_goals
    simp only [List.map_cons,List.map_nil,UInt8.toNat_ofNat',List.cons.injEq,and_true]
    omega

theorem percentByte_toNat (b : UInt8) : percentByte b.toNat = byteEscape b := by
  have hall : ∀ n < 256, percentByte n =
      ['%',hexFigures.getD (n / 16) '0',hexFigures.getD (n % 16) '0'] := by decide +kernel
  exact hall b.toNat b.toNat_lt

theorem percentChar_eq (c : Char) : percentChar c = (String.utf8EncodeChar c).flatMap byteEscape := by
  rw [percentChar,utf8_eq,List.flatMap_map]
  simp only [percentByte_toNat]

/-- A component can be written exactly when it has no half of a pair. -/
theorem percentEncode_eq (t : Text) : percentEncode isComponentChar t =
    if t.any isHalf then .error .encoding else .ok (component t) := by
  simp only [percentEncode,component,isComponentChar_iff,percentChar_eq]

end Longform.Text
