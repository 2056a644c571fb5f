import Longform.Proofs.Text.Word
import Longform.Text.Case

/-! Lower case. What a character becomes there stays as it is, and is no blank and none of the signs
that markup is made of. -/
namespace Longform
namespace Text

/-! Runs of code points. -/

/-- Code points from one to another at a distance. -/
structure Run where
  first : Nat
  last : Nat
  step : Nat

def Run.Holds (r : Run) (n : Nat) : Prop := r.first ≤ n ∧ n ≤ r.last ∧ (n - r.first) % r.step = 0

/-- The runs lie one behind the other, or one takes the odd and the other the even code points. -/
def Run.apart (r s : Run) : Bool :=
  Nat.blt r.last s.first || Nat.blt s.last r.first ||
    (s.step == 2 && (r.step == 2 || r.first == r.last) && (r.first + s.first) % 2 == 1)

theorem Run.not_holds_of_apart {r s : Run} (h : r.apart s = true) {n : Nat} (hr : r.Holds n) :
    ¬s.Holds n := by
  obtain ⟨hfirst,hlast,hstep⟩ := hr
  rintro ⟨hfirst',hlast',hstep'⟩
  unfold Run.apart at h
  simp only [Bool.or_eq_true,Bool.and_eq_true,Nat.blt_eq,beq_iff_eq] at h
  rcases h with (h | h) | ⟨⟨htwo,hsingle⟩,hodd⟩
  · omega
  · omega
  · rw [htwo] at hstep'
    rcases hsingle with h2 | hone
    · rw [h2] at hstep
      omega
    · omega

/-- The code points beyond ASCII that have a lower case of their own. -/
def sources : List Run :=
  (lowerShifts.map fun (lo,hi,step,_) => ⟨lo,hi,step⟩) ++ lowerExpansions.map fun (n,_) => ⟨n,n,1⟩

/-- The code points of lower case. -/
def images : List Run :=
  (lowerShifts.map fun (lo,hi,step,d) => ⟨Int.toNat (lo + d),Int.toNat (hi + d),step⟩) ++
    (lowerExpansions.flatMap fun (_,ns) => ns.map fun n => ⟨n,n,1⟩) ++ [⟨97,122,1⟩]

/-- What stands for no character or must not stand in names: signs, blanks and halves of pairs. -/
def nameless : List Run := [⟨0,96,1⟩,⟨128,160,1⟩,⟨5760,5760,1⟩,⟨8192,8202,1⟩,⟨8232,8239,1⟩,
  ⟨8287,8287,1⟩,⟨12288,12288,1⟩,⟨55296,57343,1⟩,⟨1114112,2000000,1⟩]

theorem apart_images : ∀ r ∈ images, ∀ s ∈ sources ++ nameless, r.apart s = true := by
  have hall : (images.all fun r => (sources ++ nameless).all r.apart) = true := by decide +kernel
  intro r hr s hs
  exact List.all_eq_true.mp (List.all_eq_true.mp hall r hr) s hs

theorem shifts_bound : ∀ row ∈ lowerShifts,
    0 ≤ (row.1 : Int) + row.2.2.2 ∧ (row.2.1 : Int) + row.2.2.2 ≤ 2000000 := by
  have hall : (lowerShifts.all fun (lo,hi,_,d) => 0 ≤ (lo : Int) + d && (hi : Int) + d ≤ 2000000) =
      true := by decide +kernel
  intro row hrow
  simpa using List.all_eq_true.mp hall row hrow

/-- A code point is moved by the shift of a run that holds it, or not at all. -/
theorem shiftOf_cases (n : Nat) (rows : List (Nat × Nat × Nat × Int)) :
    (shiftOf n rows = 0 ∧ ∀ row ∈ rows, ¬Run.Holds ⟨row.1,row.2.1,row.2.2.1⟩ n) ∨
      ∃ row ∈ rows, Run.Holds ⟨row.1,row.2.1,row.2.2.1⟩ n ∧ shiftOf n rows = row.2.2.2 := by
  induction rows with
  | nil => exact .inl ⟨rfl,by simp⟩
  | cons row rows ih =>
    obtain ⟨lo,hi,step,d⟩ := row
    rw [shiftOf]
    split
    · rename_i hin
      simp only [Bool.and_eq_true,decide_eq_true_eq,beq_iff_eq] at hin
      exact .inr ⟨_,List.mem_cons_self,⟨hin.1.1,hin.1.2,hin.2⟩,rfl⟩
    · rename_i hout
      simp only [Bool.and_eq_true,decide_eq_true_eq,beq_iff_eq] at hout
      refine ih.imp (fun ⟨hzero,hnone⟩ => ⟨hzero,?_⟩) fun ⟨row,hrow,hin,hshift⟩ =>
        ⟨row,List.mem_cons_of_mem _ hrow,hin,hshift⟩
      refine List.forall_mem_cons.mpr ⟨fun ⟨hlo,hhi,hstep⟩ => hout ⟨⟨hlo,hhi⟩,hstep⟩,hnone⟩

/-- The code point that a shift leads to lies in the run that its run is moved to. -/
theorem exists_image {row : Nat × Nat × Nat × Int} (hrow : row ∈ lowerShifts) {n : Nat}
    (h : Run.Holds ⟨row.1,row.2.1,row.2.2.1⟩ n) :
    ∃ r ∈ images, r.Holds (Int.toNat (n + row.2.2.2)) := by
  obtain ⟨lo,hi,step,d⟩ := row
  obtain ⟨hlo,hhi,hstep⟩ := h
  have hbound := (shifts_bound _ hrow).1
  have hmem : (⟨Int.toNat (lo + d),Int.toNat (hi + d),step⟩ : Run) ∈ images := by
    refine List.mem_append_left _ (List.mem_append_left _ ?_)
    exact List.mem_map.mpr ⟨_,hrow,rfl⟩
  refine ⟨_,hmem,?_,?_,?_⟩
  · simp only at hlo hbound ⊢
    omega
  · simp only at hhi ⊢
    omega
  · have hsame : Int.toNat (n + d) - Int.toNat (lo + d) = n - lo := by
      simp only at hlo hbound
      omega
    simp only [hsame]
    exact hstep

/-! Characters. -/

/-- A character of lower case that may stand in names. -/
structure IsLowered (c : Char) : Prop where
  fixed : lowerChar c = [c]
  shown : isBlank c = false
  letter : 96 < c.toNat

/-- Code points that are neither moved nor kept out of names. -/
structure IsSettled (n : Nat) : Prop where
  bound : n ≤ 2000000
  unmoved : ∀ s ∈ sources, ¬s.Holds n
  named : ∀ s ∈ nameless, ¬s.Holds n

theorem isSettled_of_image {r : Run} (hr : r ∈ images) {n : Nat} (h : r.Holds n) : IsSettled n where
  bound := by
    have hlast : (images.all fun r => Nat.ble r.last 2000000) = true := by decide +kernel
    exact Nat.le_trans h.2.1 (Nat.le_of_ble_eq_true (List.all_eq_true.mp hlast r hr))
  unmoved s hs := Run.not_holds_of_apart (apart_images r hr s (List.mem_append_left _ hs)) h
  named s hs := Run.not_holds_of_apart (apart_images r hr s (List.mem_append_right _ hs)) h

theorem toNat_ofNat {n : Nat} (h : n.isValidChar) : (Char.ofNat n).toNat = n := by
  rw [Char.ofNat,dif_pos h]
  rfl

theorem shiftOf_of_unmoved {n : Nat} (h : ∀ s ∈ sources, ¬s.Holds n) : shiftOf n lowerShifts = 0 := by
  rcases shiftOf_cases n lowerShifts with ⟨hzero,-⟩ | ⟨row,hrow,hin,-⟩
  · exact hzero
  · exact absurd hin (h _ (List.mem_append_left _ (List.mem_map.mpr ⟨row,hrow,rfl⟩)))

theorem lookup_of_unmoved {n : Nat} (h : ∀ s ∈ sources, ¬s.Holds n) :
    lowerExpansions.lookup n = none := by
  refine List.lookup_eq_none_iff.mpr fun row hrow => bne_iff_ne.mpr ?_
  rintro rfl
  exact h _ (List.mem_append_right _ (List.mem_map.mpr ⟨row,hrow,rfl⟩))
    ⟨Nat.le.refl,Nat.le.refl,Nat.mod_one _⟩

theorem isLowered_ofNat {n : Nat} (h : IsSettled n) : IsLowered (Char.ofNat n) := by
  have hnamed : ∀ s ∈ nameless, ¬(s.first ≤ n ∧ n ≤ s.last ∧ (n - s.first) % s.step = 0) := h.named
  simp only [nameless,List.forall_mem_cons,Nat.mod_one,and_true] at hnamed
  obtain ⟨hsign,hcontrol,hogham,hspaces,hbreaks,hmath,hwide,hhalf,hend,-⟩ := hnamed
  have hvalid : n.isValidChar := by
    have hbound := h.bound
    unfold Nat.isValidChar
    omega
  have hn := toNat_ofNat hvalid
  refine ⟨?_,?_,by omega⟩
  · unfold lowerChar
    rw [hn]
    split
    · rename_i hascii
      have hlow : ∀ m < 128, 96 < m → (Char.ofNat m).toLower = Char.ofNat m := by decide
      rw [hlow n hascii (by omega)]
    · rw [mapCase,hn,lookup_of_unmoved h.unmoved,shiftOf_of_unmoved h.unmoved]
      simp
  · unfold isBlank
    simp only [hn,Bool.or_eq_false_iff,Bool.and_eq_false_iff,decide_eq_false_iff_not,
      beq_eq_false_iff_ne]
    omega

/-- A character stays as it is, or what it becomes is in lower case. -/
theorem lowerChar_cases (c : Char) :
    lowerChar c = [c] ∨ lowerChar c ≠ [] ∧ ∀ d ∈ lowerChar c, IsLowered d := by
  unfold lowerChar
  split
  · rename_i hascii
    have hall : ∀ n < 128, (Char.ofNat n).toLower = Char.ofNat n ∨
        65 ≤ n ∧ n ≤ 90 ∧ (Char.ofNat n).toLower = Char.ofNat (n + 32) := by decide
    have hc := hall c.toNat hascii
    rw [Char.ofNat_toNat] at hc
    refine hc.imp (fun h => by rw [h]) fun ⟨hlo,hhi,h⟩ => ⟨by simp,?_⟩
    have hsettled : IsSettled (c.toNat + 32) := by
      refine isSettled_of_image (r := ⟨97,122,1⟩) (by simp [images]) ⟨?_,?_,Nat.mod_one _⟩
      · show 97 ≤ c.toNat + 32
        omega
      · show c.toNat + 32 ≤ 122
        omega
    rw [h,List.forall_mem_singleton]
    exact isLowered_ofNat hsettled
  · unfold mapCase
    cases hlookup : lowerExpansions.lookup c.toNat with
    | some ns =>
      obtain ⟨before,behind,hrows,-⟩ := List.lookup_eq_some_iff.mp hlookup
      have hrow : (c.toNat,ns) ∈ lowerExpansions := by simp [hrows]
      refine .inr ⟨?_,?_⟩
      · have hne : ∀ row ∈ lowerExpansions, row.2 ≠ [] := by decide
        simpa using hne _ hrow
      · refine List.forall_mem_map.mpr fun n hn => isLowered_ofNat ?_
        refine isSettled_of_image (r := ⟨n,n,1⟩) ?_ ⟨Nat.le.refl,Nat.le.refl,Nat.mod_one _⟩
        refine List.mem_append_left _ (List.mem_append_right _ ?_)
        exact List.mem_flatMap.mpr ⟨_,hrow,List.mem_map.mpr ⟨n,hn,rfl⟩⟩
    | none =>
      rcases shiftOf_cases c.toNat lowerShifts with ⟨hzero,-⟩ | ⟨row,hrow,hin,hshift⟩
      · rw [hzero]
        exact .inl (by simp)
      · rw [hshift]
        refine .inr ⟨by simp,?_⟩
        obtain ⟨r,hr,himage⟩ := exists_image hrow hin
        exact List.forall_mem_singleton.mpr (isLowered_ofNat (isSettled_of_image hr himage))

theorem lower_of_fixed {t : Text} (h : ∀ d ∈ t, lowerChar d = [d]) : lower t = t := by
  induction t with
  | nil => rfl
  | cons d t ih =>
    obtain ⟨hd,ht⟩ := List.forall_mem_cons.mp h
    rw [lower,List.flatMap_cons,hd]
    exact congrArg (d::·) (ih ht)

theorem lower_lowerChar (c : Char) : lower (lowerChar c) = lowerChar c := by
  rcases lowerChar_cases c with h | ⟨-,h⟩
  · rw [h,lower,List.flatMap_singleton,h]
  · exact lower_of_fixed fun d hd => (h d hd).fixed

/-- A text in lower case is its own. -/
theorem lower_lower (t : Text) : lower (lower t) = lower t := by
  calc
    lower (lower t) = t.flatMap fun c => lower (lowerChar c) := List.flatMap_assoc
    _ = lower t := by simp only [lower_lowerChar]; rfl

end Text
end Longform
