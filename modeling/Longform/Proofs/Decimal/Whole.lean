import Longform.Decimal.Read
import Longform.Proofs.Text.Word

/-! Whole numbers that are written out. They are read as the numbers they are, and each number is written that
has no more figures than may be read. -/
namespace Longform
namespace Decimal

/-- A text of figures. -/
def IsFigures (t : Text) : Prop := ∀ c ∈ t, c.isDigit = true

theorem isFigures_ofNat (n : Nat) : IsFigures (Text.ofNat n) := fun _ hc =>
  Nat.isDigit_of_mem_toDigits (by decide) (by decide) hc

theorem isPlainSpace_eq_false {c : Char} (h : 33 ≤ c.toNat) : isPlainSpace c = false := by
  have hne : c ≠ ' ' := by
    rintro rfl
    exact absurd h (by decide)
  have hrange : ¬c.toNat ≤ 13 := by omega
  simp [isPlainSpace,hne,hrange]

theorem dropEndWhile_eq_self {p : Char → Bool} {t : Text} (h : ∀ c ∈ t, p c = false) :
    Text.dropEndWhile p t = t := by
  induction t with
  | nil => rfl
  | cons c t ih =>
    rw [List.forall_mem_cons] at h
    rw [Text.dropEndWhile,ih h.2]
    cases t with
    | nil => simp [h.1]
    | cons d t => rfl

/-- Visible characters of the first code page are in plain form. -/
theorem plainForm_eq_self {t : Text} (h : ∀ c ∈ t, 33 ≤ c.toNat ∧ c.toNat < 127) :
    plainForm t = t := by
  have hspace : ∀ c ∈ t, isPlainSpace c = false := fun c hc => isPlainSpace_eq_false (h c hc).1
  have hmap : t.map plainChar = t := by
    conv => rhs; rw [← List.map_id t]
    refine List.map_congr_left fun c hc => ?_
    rw [plainChar,if_pos (h c hc).2]
    rfl
  have hdrop : t.dropWhile isPlainSpace = t := by
    cases t with
    | nil => rfl
    | cons c t => exact List.dropWhile_cons_of_neg (by simp [hspace c (by simp)])
  rw [plainForm,hmap,hdrop,dropEndWhile_eq_self hspace]

/-- Figures have the value that they are written for. -/
theorem digitsFrom_figures {bare : Bool} {n : Nat} {t : Text} (ht : IsFigures t)
    (hne : bare = true → t ≠ []) : digitsFrom 10 bare n t = some (Nat.ofDigitChars 10 t n) := by
  induction t generalizing bare n with
  | nil =>
    cases bare with
    | true => exact absurd rfl (hne rfl)
    | false => rfl
  | cons c t ih =>
    obtain ⟨hc,ht⟩ := List.forall_mem_cons.mp ht
    have hrange := Text.toNat_of_isDigit hc
    have hunderscore : c ≠ '_' := by
      rintro rfl
      cases hc
    have hvalue : digitValue c = c.toNat - 48 := if_pos hc
    have hlt : digitValue c < 10 := by omega
    rw [digitsFrom,if_neg hunderscore,if_pos hlt,ih ht (by simp),hvalue]
    rfl

/-- A text that is not too long holds no number with too many figures. -/
theorem excess?_eq_none {base : Nat} {t : Text} (h : t.length ≤ mostFigures) : excess? base t = none := by
  have hfigures : ((t.takeWhile fun c => c = '_' || digitValue c < base).filter (· ≠ '_')).length ≤
      mostFigures :=
    Nat.le_trans (List.length_filter_le _ _) (Nat.le_trans (List.takeWhile_prefix _).length_le h)
  simp only [excess?,decide_eq_false (Nat.not_lt.mpr hfigures),Bool.and_false,Bool.false_and,
    Bool.false_eq_true,if_false]

theorem behindMark_ten (t : Text) : behindMark 10 t = t := by
  have hmark : ∀ c, baseMark 10 c = false := fun c => by simp [baseMark]
  unfold behindMark
  split
  · simp only [hmark,Bool.false_eq_true,if_false]
  · rfl

/-- Figures behind a sign are read as the number that they are. -/
theorem integer?_of_figures {t r : Text} {negative : Bool} (ht : ∀ c ∈ t, 33 ≤ c.toNat ∧ c.toNat < 127)
    (hsign : cutSign t = (negative,r)) (hr : IsFigures r) (hne : r ≠ []) (hlength : r.length ≤ mostFigures) :
    integer? 10 t =
      .ok (if negative then -(Nat.ofDigitChars 10 r 0 : Int) else Nat.ofDigitChars 10 r 0) := by
  have hdigits : digitsFrom 10 true 0 r = some (Nat.ofDigitChars 10 r 0) :=
    digitsFrom_figures hr fun _ => hne
  simp only [integer?,value?,plainForm_eq_self ht,hsign,behindMark_ten,excess?_eq_none hlength,hdigits,
    Option.map_some]

theorem value?_of_integer? {base : Nat} {t : Text} {n : Int} (h : integer? base t = .ok n) :
    value? base t = some n := by
  unfold integer? at h
  split at h
  · cases h
  split at h
  · cases h
    assumption
  · cases h

/-- A fault of a number that has more figures than are read or written. -/
inductive TooLong : Fault → Prop
  | read {figures} : mostFigures < figures → TooLong (.longLiteral figures)
  | written : TooLong .longNumber

theorem excess?_eq_some {base figures : Nat} {t : Text} (h : excess? base t = some figures) :
    mostFigures < figures := by
  simp only [excess?] at h
  split at h
  · rename_i hlong
    cases h
    simp only [Bool.and_eq_true,decide_eq_true_eq] at hlong
    exact hlong.1.2
  · cases h

/-- A text is not read as a whole number when it is none, or when it is too long. -/
theorem integer?_error {base : Nat} {t : Text} {e : Fault} (h : integer? base t = .error e) :
    (value? base t = none ∧ e = .integer t base) ∨ TooLong e := by
  unfold integer? at h
  split at h
  · cases h
    exact .inr (.read (excess?_eq_some ‹_›))
  split at h
  · cases h
  · cases h
    exact .inl ⟨‹_›,rfl⟩

/-- A number is written as its figures, unless there are too many of them. -/
theorem write_eq_ok_iff {n : Int} {t : Text} :
    write n = .ok t ↔ (Text.ofNat n.natAbs).length ≤ mostFigures ∧ t = Text.ofInt n := by
  unfold write isLong
  by_cases hlong : mostFigures < (Text.ofNat n.natAbs).length
  · simp only [hlong,decide_true,if_true,reduceCtorEq,false_iff]
    exact fun hok => Nat.not_le.mpr hlong hok.1
  · simp only [hlong,decide_false,Bool.false_eq_true,if_false,Except.ok.injEq,Nat.not_lt.mp hlong,true_and]
    exact eq_comm

theorem write_error {n : Int} {e : Fault} (h : write n = .error e) :
    mostFigures < (Text.ofNat n.natAbs).length ∧ e = .longNumber := by
  unfold write isLong at h
  split at h
  · cases h
    exact ⟨of_decide_eq_true ‹_›,rfl⟩
  · cases h

/-- What is written of a number is read as it. -/
theorem integer?_of_write {n : Int} {t : Text} (h : write n = .ok t) : integer? 10 t = .ok n := by
  obtain ⟨hlength,rfl⟩ := write_eq_ok_iff.mp h
  have hvisible : ∀ {t : Text}, IsFigures t → ∀ c ∈ t, 33 ≤ c.toNat ∧ c.toNat < 127 := by
    intro t ht c hc
    have hrange := Text.toNat_of_isDigit (ht c hc)
    omega
  have hvalue : ∀ k, Nat.ofDigitChars 10 (Text.ofNat k) 0 = k := fun k => Nat.ofDigitChars_ten_toDigits
  have hne : ∀ k, Text.ofNat k ≠ [] := fun k => Nat.toDigits_ne_nil
  cases n with
  | ofNat k =>
    have hfigures := isFigures_ofNat k
    have hsign : cutSign (Text.ofNat k) = (false,Text.ofNat k) := by
      unfold cutSign
      split
      · rename_i r h
        exact absurd (hfigures '-' (by simp [h])) (by decide)
      · rename_i r h
        exact absurd (hfigures '+' (by simp [h])) (by decide)
      · rfl
    rw [Text.ofInt,integer?_of_figures (hvisible hfigures) hsign hfigures (hne k) hlength,hvalue]
    rfl
  | negSucc k =>
    have hfigures := isFigures_ofNat (k + 1)
    have hall : ∀ c ∈ '-' :: Text.ofNat (k + 1), 33 ≤ c.toNat ∧ c.toNat < 127 :=
      List.forall_mem_cons.mpr ⟨by decide,hvisible hfigures⟩
    rw [Text.ofInt,integer?_of_figures hall rfl hfigures (hne _) hlength,hvalue]
    rfl

end Decimal
end Longform
