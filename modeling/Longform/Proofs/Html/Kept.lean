import Mathlib.Data.List.DropRight
import Longform.Proofs.Html.Sound
import Longform.Proofs.Outcome
import Longform.Proofs.Text.Case

/-! Names and attributes of start tags. What the reader keeps of them it keeps as it is when it reads
them again. -/
namespace Longform.Html

open Builder Text

/-! Names. -/

theorem isNamePart_of_isLowered {c : Char} (h : IsLowered c) : isNamePart c = true := by
  have hletter := h.letter
  have hne : c ≠ '/' ∧ c ≠ '=' ∧ c ≠ '>' := by
    refine ⟨?_,?_,?_⟩ <;> rintro rfl <;> revert hletter <;> decide
  simp [isNamePart,h.shown,hne]

theorem endsName_of_isLowered {c : Char} (h : IsLowered c) : endsName c = false := by
  have hletter := h.letter
  have hne : ∀ d : Char, d.toNat ≤ 96 → c ≠ d := by
    rintro d hd rfl
    omega
  unfold endsName
  simp [hne]

theorem isNameStart_of_isNamePart {c : Char} (h : isNamePart c = true) : isNameStart c = true := by
  unfold isNamePart at h
  unfold isNameStart
  simp only [Bool.not_eq_true',Bool.or_eq_false_iff] at h ⊢
  exact ⟨⟨h.1.1.1,h.1.1.2⟩,h.2⟩

/-- What holds of a character, and of all characters in lower case, holds of its lower case. -/
theorem forall_mem_lowerChar {p : Char → Prop} (hp : ∀ d, IsLowered d → p d) {c : Char} (hc : p c) :
    ∀ d ∈ lowerChar c, p d := by
  rcases lowerChar_cases c with h | ⟨-,h⟩
  · rw [h,List.forall_mem_singleton]
    exact hc
  · exact fun d hd => hp d (h d hd)

theorem forall_mem_lower {p : Char → Prop} (hp : ∀ d, IsLowered d → p d) {t : Text}
    (ht : ∀ c ∈ t, p c) : ∀ d ∈ lower t, p d := by
  intro d hd
  obtain ⟨c,hc,hd⟩ := List.mem_flatMap.mp hd
  exact forall_mem_lowerChar hp (ht c hc) d hd

theorem IsAttributeName.lower {k : Text} (h : IsAttributeName k) : IsAttributeName (Text.lower k) := by
  obtain ⟨c,r,rfl,hc,hr⟩ := h
  have hrest : ∀ d ∈ Text.lower r, isNamePart d = true :=
    forall_mem_lower (fun d hd => isNamePart_of_isLowered hd) hr
  rw [Text.lower,List.flatMap_cons]
  rcases lowerChar_cases c with h | ⟨hne,h⟩
  · rw [h]
    exact ⟨c,_,rfl,hc,hrest⟩
  · obtain ⟨d,ds,hcons⟩ := List.exists_cons_of_ne_nil hne
    rw [hcons,List.forall_mem_cons] at h
    rw [hcons]
    refine ⟨d,_,rfl,isNameStart_of_isNamePart (isNamePart_of_isLowered h.1),fun e he => ?_⟩
    rcases List.mem_append.mp he with he | he
    · exact isNamePart_of_isLowered (h.2 e he)
    · exact hrest e he

theorem lowerChar_letter {c : Char} (h : c.isAlpha = true) :
    ∃ d, lowerChar c = [d] ∧ d.isAlpha = true := by
  have hascii : c.toNat < 128 := by
    have hrange := Text.toNat_of_isAlpha h
    omega
  have hall : ∀ n < 128, (Char.ofNat n).isAlpha = true → (Char.ofNat n).toLower.isAlpha = true := by
    decide
  refine ⟨c.toLower,if_pos hascii,?_⟩
  have hc := hall c.toNat hascii
  rw [Char.ofNat_toNat] at hc
  exact hc h

theorem not_endsName_of_isAlpha {c : Char} (h : c.isAlpha = true) : endsName c = false := by
  cases hc : endsName c with
  | false => rfl
  | true =>
    unfold endsName at hc
    simp only [Bool.or_eq_true,decide_eq_true_eq] at hc
    rcases hc with ((((((rfl | rfl) | rfl) | rfl) | rfl) | rfl) | rfl) | rfl <;> cases h

theorem name_opening (t : Text) : (opening t).name = t.takeWhile fun c => !endsName c := rfl

/-- The name of an element begins with the letter behind the angle bracket. -/
theorem isElementName_opening {c : Char} (h : c.isAlpha = true) (t : Text) :
    IsElementName (Text.lower (opening (c::t)).name) := by
  have hname : (opening (c::t)).name = c::t.takeWhile fun d => !endsName d := by
    rw [name_opening,List.takeWhile_cons_of_pos]
    simp [not_endsName_of_isAlpha h]
  refine ⟨?_,?_,lower_lower _⟩
  · obtain ⟨d,hd,hletter⟩ := lowerChar_letter h
    rw [hname,Text.lower,List.flatMap_cons,hd]
    exact ⟨d,_,rfl,hletter⟩
  · refine forall_mem_lower (fun d hd => endsName_of_isLowered hd) fun d hd => ?_
    rw [name_opening] at hd
    simpa using List.mem_takeWhile_imp hd

/-! Attributes. -/

theorem isAttributeName_attribute? {before : Char} {t rest : Text} {w : Written}
    (h : attribute? before t = some (w,rest)) : IsAttributeName w.name := by
  unfold attribute? at h
  split at h
  · rename_i c r
    split at h
    · rename_i hstart
      simp only [Bool.and_eq_true] at hstart
      have hname : IsAttributeName (c::r.takeWhile isNamePart) :=
        ⟨c,_,rfl,hstart.2,fun d hd => List.mem_takeWhile_imp hd⟩
      simp only at h
      split at h <;> cases h <;> exact hname
    · cases h
  · cases h

theorem isAttributeName_attributesFrom (fuel : Nat) (before : Char) (t : Text) :
    ∀ w ∈ (attributesFrom fuel before t).1, IsAttributeName w.name := by
  induction fuel generalizing before t with
  | zero => simp [attributesFrom]
  | succ fuel ih =>
    rw [attributesFrom]
    split
    · simp
    · rename_i w rest hread
      exact List.forall_mem_cons.mpr ⟨isAttributeName_attribute? hread,ih _ rest⟩

theorem exists_attrs (t : Text) :
    ∃ fuel before rest, (opening t).attrs = (attributesFrom fuel before rest).1 := by
  unfold opening
  exact ⟨_,_,_,rfl⟩

theorem isAttributeName_opening {t : Text} {attrs : Dictionary Text}
    (h : (opening t).attributes = .ok attrs) :
    ∀ k ∈ attrs.keys, IsAttributeName k ∧ Text.lower k = k := by
  obtain ⟨es,hes,rfl⟩ := map_eq_ok_iff.mp h
  intro k hk
  obtain ⟨entry,hentry,rfl⟩ := List.mem_map.mp (Dictionary.mem_keys_ofEntries hk)
  obtain ⟨w,hw,hread⟩ := exists_of_mem_mapM hes entry hentry
  obtain ⟨v,-,rfl⟩ := map_eq_ok_iff.mp hread
  obtain ⟨fuel,before,rest,hattrs⟩ := exists_attrs t
  have hname := isAttributeName_attributesFrom fuel before rest w (hattrs ▸ hw)
  exact ⟨hname.lower,lower_lower w.name⟩

/-! Values. -/

theorem wordList_wordList (gap : Bool) (t : Text) :
    wordList false (wordList gap t) = wordList gap t := by
  induction t generalizing gap with
  | nil => rfl
  | cons c t ih =>
    rw [wordList]
    split
    · exact ih true
    · rename_i hc
      split
      · have hspace : Text.isBlank ' ' = true := by decide
        rw [wordList,if_pos hspace,wordList,if_neg hc,if_pos rfl,ih]
      · rw [wordList,if_neg hc,if_neg Bool.false_ne_true,ih]

theorem words_words (t : Text) : words (words t) = words t := by
  unfold words
  have hhead : (wordList false (t.dropWhile isBlank)).dropWhile isBlank =
      wordList false (t.dropWhile isBlank) := by
    cases hu : t.dropWhile isBlank with
    | nil => rfl
    | cons c u =>
      have hc : isBlank c = false := by
        have hnot := List.head_dropWhile_not (p:=isBlank) (l:=t) (by simp [hu])
        simpa [hu] using hnot
      rw [wordList,if_neg (by simp [hc]),if_neg Bool.false_ne_true]
      exact List.dropWhile_cons_of_neg (by simp [hc])
  rw [hhead,wordList_wordList]

/-! A character set. -/

/-- What is written for a character set begins as what was there. -/
theorem take_withCharset (atStart : Bool) (t : Text) {k : Nat} (hk : k ≤ 8) :
    (withCharset atStart t).take k = t.take k := by
  induction t generalizing atStart k with
  | nil => rfl
  | cons c r ih =>
    rw [withCharset]
    split
    · rename_i rest hmatch
      have hafter : Text.after? "charset=".toList (c::r) = some rest := by
        split at hmatch
        · exact hmatch
        · cases hmatch
      have hown : "charset=utf-8".toList = "charset=".toList ++ "utf-8".toList := by decide
      have hlength : k ≤ "charset=".toList.length := hk
      rw [eq_append_of_after? hafter,hown,List.append_assoc,
        List.take_append_of_le_length hlength,List.take_append_of_le_length hlength]
    · cases k with
      | zero => rfl
      | succ k => rw [List.take_succ_cons,List.take_succ_cons,ih _ (by omega)]

theorem after?_charset_of_take {t u : Text} (h : t.take 8 = u.take 8)
    (ht : Text.after? "charset=".toList t = none) : Text.after? "charset=".toList u = none := by
  cases hu : Text.after? "charset=".toList u with
  | none => rfl
  | some rest =>
    have height : u.take 8 = "charset=".toList := by
      rw [eq_append_of_after? hu]
      exact List.take_left' rfl
    have hbegin : t = "charset=".toList ++ t.drop 8 := by
      rw [← height,← h,List.take_append_drop]
    have hsome := after?_append "charset=".toList (t.drop 8)
    rw [← hbegin,ht] at hsome
    cases hsome

theorem withCharset_of_some {t rest : Text} (h : Text.after? "charset=".toList t = some rest) :
    withCharset true t = "charset=utf-8".toList ++ rest.dropWhile (· ≠ ';') := by
  cases t with
  | nil => cases h
  | cons c r => rw [withCharset,if_pos rfl,h]

theorem withCharset_of_none {atStart : Bool} {c : Char} {r : Text}
    (h : (if atStart then Text.after? "charset=".toList (c::r) else none) = none) :
    withCharset atStart (c::r) = c::withCharset (c = ';' || Text.isBlank c) r := by
  rw [withCharset,h]

/-- The character set that is written is found and written again. -/
theorem withCharset_own (t : Text) :
    withCharset true ("charset=utf-8".toList ++ t.dropWhile (· ≠ ';')) =
      "charset=utf-8".toList ++ t.dropWhile (· ≠ ';') := by
  have hown : "charset=utf-8".toList = "charset=".toList ++ "utf-8".toList := by decide
  have hagain : Text.after? "charset=".toList ("charset=utf-8".toList ++ t.dropWhile (· ≠ ';')) =
      some ("utf-8".toList ++ t.dropWhile (· ≠ ';')) := by
    rw [hown,List.append_assoc]
    exact after?_append _ _
  have hname : ∀ d ∈ "utf-8".toList, decide (d ≠ ';') = true :=
    List.all_eq_true.mp rfl
  rw [withCharset_of_some hagain,List.dropWhile_append_of_pos hname,List.dropWhile_idempotent]

theorem withCharset_withCharset (atStart : Bool) (t : Text) :
    withCharset atStart (withCharset atStart t) = withCharset atStart t := by
  induction t generalizing atStart with
  | nil => rfl
  | cons c r ih =>
    cases hmatch : (if atStart then Text.after? "charset=".toList (c::r) else none) with
    | some rest =>
      cases atStart with
      | false => cases hmatch
      | true => rw [withCharset_of_some hmatch,withCharset_own]
    | none =>
      rw [withCharset_of_none hmatch,withCharset_of_none,ih]
      cases atStart with
      | false => rfl
      | true =>
        have htake := take_withCharset (c = ';' || Text.isBlank c) r (k:=7) (by decide)
        have height : (c::r).take 8 = (c::withCharset (c = ';' || Text.isBlank c) r).take 8 := by
          rw [List.take_succ_cons,List.take_succ_cons,htake]
        exact after?_charset_of_take height hmatch

/-! Attributes as they are kept. -/

section Own
variable {attrs : Dictionary Text}

theorem keys_ownCharset (attrs : Dictionary Text) : (ownCharset attrs).keys = attrs.keys := by
  unfold ownCharset
  split
  · rename_i hkey
    exact Dictionary.keys_set_of_mem _ (Dictionary.mem_keys_of_hasKey hkey)
  · split
    · rename_i content kind hcontent hkind
      split
      · refine Dictionary.keys_set_of_mem _ (Dictionary.mem_keys_of_hasKey ?_)
        rw [Dictionary.hasKey,hcontent]
        rfl
      · rfl
    · rfl

theorem mem_ownCharset {a : Text × Text} (h : a ∈ ownCharset attrs) :
    a.1 = "charset".toList ∨ a.1 = "content".toList ∨ a ∈ attrs := by
  unfold ownCharset at h
  split at h
  · exact (Dictionary.mem_set h).imp id .inr
  · split at h
    · split at h
      · exact .inr (Dictionary.mem_set h)
      · exact .inr (.inr h)
    · exact .inr (.inr h)

/-- A character set is written for one of two attributes, or for none. -/
theorem ownCharset_cases (attrs : Dictionary Text) : ownCharset attrs = attrs ∨
    ownCharset attrs = attrs.set "charset".toList "utf-8".toList ∨
    ∃ content kind, attrs.hasKey "charset".toList = false ∧
      attrs.find? "content".toList = some content ∧ attrs.find? "http-equiv".toList = some kind ∧
      Text.lower kind = "content-type".toList ∧
      ownCharset attrs = attrs.set "content".toList (withCharset true content) := by
  unfold ownCharset
  split
  · exact .inr (.inl rfl)
  · rename_i hkey
    split
    · rename_i content kind hcontent hkind
      split
      · rename_i htype
        exact .inr (.inr ⟨content,kind,by simpa using hkey,hcontent,hkind,htype,rfl⟩)
      · exact .inl rfl
    · exact .inl rfl

theorem ownCharset_ownCharset (attrs : Dictionary Text) :
    ownCharset (ownCharset attrs) = ownCharset attrs := by
  rcases ownCharset_cases attrs with h | h | ⟨content,kind,hkey,hcontent,hkind,htype,h⟩
  · rw [h,h]
  · have hfind := Dictionary.find?_set "charset".toList "utf-8".toList attrs
    have hhas : (attrs.set "charset".toList "utf-8".toList).hasKey "charset".toList = true := by
      rw [Dictionary.hasKey,hfind]
      rfl
    rw [h,ownCharset,if_pos hhas]
    exact Dictionary.set_eq_self hfind
  · generalize hd : attrs.set "content".toList (withCharset true content) = d at h
    have hfind : d.find? "content".toList = some (withCharset true content) := by
      rw [← hd]
      exact Dictionary.find?_set _ _ _
    have hother : ∀ k, k ≠ "content".toList → d.find? k = attrs.find? k := fun k hk => by
      rw [← hd]
      exact Dictionary.find?_set_of_ne _ hk
    have hhas : d.hasKey "charset".toList = false := by
      rw [Dictionary.hasKey,hother _ (by decide)]
      exact hkey
    rw [h,ownCharset,hhas,if_neg Bool.false_ne_true,hfind,hother _ (by decide),hkind]
    simp only
    rw [if_pos htype,withCharset_withCharset]
    exact Dictionary.set_eq_self hfind

end Own

theorem keys_kept (name : Text) (attrs : Dictionary Text) : (kept name attrs).keys = attrs.keys := by
  have hmap : (worded name attrs).keys = attrs.keys := by simp [worded,Dictionary.keys]
  rw [kept_worded]
  split
  · rw [keys_ownCharset,hmap]
  · exact hmap

theorem isKept_kept {name : Text} {attrs : Dictionary Text}
    (hnames : ∀ k ∈ attrs.keys, IsAttributeName k ∧ Text.lower k = k) (hnodup : attrs.keys.Nodup) :
    IsKept name (kept name attrs) := by
  have hkeys := keys_kept name attrs
  have hmem : ∀ a ∈ kept name attrs, a.1 ∈ attrs.keys := fun a ha =>
    hkeys ▸ List.mem_map_of_mem (f:=(·.1)) ha
  refine ⟨fun a ha => (hnames _ (hmem a ha)).1,fun a ha => (hnames _ (hmem a ha)).2,
    hkeys ▸ hnodup,?_,?_⟩
  · intro a ha hlist
    have hmap : a ∈ worded name attrs := by
      rw [kept_worded] at ha
      split at ha
      · rename_i hname
        have hno : isListAttribute "meta".toList "charset".toList = false ∧
            isListAttribute "meta".toList "content".toList = false := by decide
        rcases mem_ownCharset ha with h | h | h
        · rw [hname,h,hno.1] at hlist
          cases hlist
        · rw [hname,h,hno.2] at hlist
          cases hlist
        · exact h
      · exact ha
    obtain ⟨⟨k,v⟩,-,rfl⟩ := List.mem_map.mp hmap
    simp only at hlist ⊢
    rw [if_pos hlist,words_words]
  · intro hname
    rw [kept_worded,if_pos hname,ownCharset_ownCharset]

theorem isKept_opening {t : Text} {attrs : Dictionary Text} (h : (opening t).attributes = .ok attrs)
    (name : Text) : IsKept name (kept name attrs) := by
  have hnames := isAttributeName_opening h
  obtain ⟨es,-,rfl⟩ := map_eq_ok_iff.mp h
  exact isKept_kept hnames (Dictionary.nodup_keys_ofEntries es)

end Longform.Html
