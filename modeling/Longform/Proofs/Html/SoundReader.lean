import Longform.Proofs.Html.SoundBuilder
import Longform.Proofs.Text.Lines

/-! Every tree that is read is sound: each construct keeps what is built so, as long as a script or
style is left only by its own end tag. -/
namespace Longform.Html

open Builder Text

/-! Texts of their own kind end where they first can. -/

section Ends
variable {after? : Text → Option Text} {t a b : Text}

theorem cutWhere_eq_none (h : ∀ u, u <:+ t → after? u = none) : cutWhere after? t = none := by
  induction t with
  | nil => rfl
  | cons c r ih =>
    have hr := ih fun u hu => h u (hu.trans (List.suffix_cons c r))
    rw [cutWhere,h _ (List.suffix_refl _)]
    simp only [hr,Option.map_none]

theorem after?_of_cutWhere_eq_none (hnil : after? [] = none) (h : cutWhere after? t = none) :
    ∀ u, u <:+ t → after? u = none := by
  induction t with
  | nil =>
    intro u hu
    rw [List.suffix_nil.mp hu]
    exact hnil
  | cons c r ih =>
    rw [cutWhere] at h
    split at h
    · cases h
    · rename_i hnone
      intro u hu
      rcases List.suffix_cons_iff.mp hu with rfl | hu
      · exact hnone
      · exact ih (Option.map_eq_none_iff.mp h) u hu

/-- What is found does not change when more follows. -/
def Extends (after? : Text → Option Text) : Prop :=
  ∀ t rest more, after? t = some rest → after? (t ++ more) = some (rest ++ more)

theorem prefix_of_cutWhere (h : cutWhere after? t = some (a,b)) : a <+: t := by
  induction t generalizing a with
  | nil => cases h
  | cons c r ih =>
    rw [cutWhere] at h
    split at h
    · cases h
      exact List.nil_prefix
    · obtain ⟨⟨a,b'⟩,hr,he⟩ := Option.map_eq_some_iff.mp h
      cases he
      exact List.cons_prefix_cons.mpr ⟨rfl,ih hr⟩

/-- In front of the first end there is none. -/
theorem cutWhere_of_cutWhere (hextends : Extends after?) (h : cutWhere after? t = some (a,b)) :
    cutWhere after? a = none := by
  induction t generalizing a with
  | nil => cases h
  | cons c r ih =>
    rw [cutWhere] at h
    split at h
    · cases h
      rfl
    · rename_i hnone
      obtain ⟨⟨a,b'⟩,hr,he⟩ := Option.map_eq_some_iff.mp h
      cases he
      obtain ⟨more,hmore⟩ := prefix_of_cutWhere hr
      have hfirst : after? (c::a) = none := by
        cases hc : after? (c::a) with
        | none => rfl
        | some rest =>
          have hlong := hextends (c::a) rest more hc
          rw [List.cons_append,hmore,hnone] at hlong
          cases hlong
      rw [cutWhere,hfirst]
      simp only [ih hr,Option.map_none]

end Ends

theorem dropWhile_append_of_ne_nil {p : Char → Bool} {t : Text} (h : t.dropWhile p ≠ [])
    (more : Text) : (t ++ more).dropWhile p = t.dropWhile p ++ more := by
  rw [List.dropWhile_append,if_neg (by simpa using h)]

theorem extends_afterClosing : Extends afterClosing? := by
  intro t rest more h
  unfold afterClosing? at h ⊢
  split at h
  · rename_i r hdrop
    cases h
    rw [dropWhile_append_of_ne_nil (by simp [hdrop]),hdrop]
    rfl
  · cases h

theorem extends_afterComment : Extends afterComment? := by
  intro t rest more h
  unfold afterComment? at h
  split at h
  · exact extends_afterClosing _ rest more h
  · cases h

theorem extends_afterSingleSection : Extends afterSingleSection? := by
  intro t rest more h
  unfold afterSingleSection? at h
  split at h
  · exact extends_afterClosing _ rest more h
  · cases h

theorem extends_afterDoubleSection : Extends afterDoubleSection? := by
  intro t rest more h
  unfold afterDoubleSection? at h
  split at h
  · rename_i r
    have hne : r.dropWhile isBlank ≠ [] := by
      intro hnil
      rw [hnil] at h
      cases h
    show afterSingleSection? ((r ++ more).dropWhile isBlank) = _
    rw [dropWhile_append_of_ne_nil hne]
    exact extends_afterSingleSection _ rest more h
  · cases h

theorem mem_of_afterClosing? {t rest : Text} (h : afterClosing? t = some rest) : '>' ∈ t := by
  unfold afterClosing? at h
  split at h
  · rename_i r hdrop
    exact (List.dropWhile_sublist _).subset (hdrop ▸ List.mem_cons_self)
  · cases h

/-- A text without closing brackets ends no comment. -/
theorem cutWhere_afterComment_of_not_mem {t : Text} (h : '>' ∉ t) : cutWhere afterComment? t = none := by
  refine cutWhere_eq_none fun u hu => ?_
  cases hend : afterComment? u with
  | none => rfl
  | some rest =>
    unfold afterComment? at hend
    split at hend
    · have hmem := mem_of_afterClosing? hend
      exact absurd (hu.subset (List.mem_cons_of_mem _ (List.mem_cons_of_mem _ hmem))) h
    · cases hend

/-- A text that two brackets would close is closed by the second of them. -/
theorem cutWhere_afterDoubleSection {t : Text} (h : cutWhere afterSingleSection? t = none) :
    cutWhere afterDoubleSection? t = none := by
  have hnone := after?_of_cutWhere_eq_none rfl h
  refine cutWhere_eq_none fun u hu => ?_
  cases u with
  | nil => rfl
  | cons c r =>
    by_cases hc : c = ']'
    · subst hc
      have hsuffix : r.dropWhile isBlank <:+ t :=
        (List.dropWhile_suffix _).trans ((List.suffix_cons _ _).trans hu)
      exact hnone _ hsuffix
    · unfold afterDoubleSection?
      split
      · rename_i hcons
        exact absurd (List.cons.inj hcons).1 hc
      · rfl

theorem cutWhere_drop {after? : Text → Option Text} {t : Text} (hnil : after? [] = none)
    (h : cutWhere after? t = none) (n : Nat) : cutWhere after? (t.drop n) = none :=
  cutWhere_eq_none fun u hu =>
    after?_of_cutWhere_eq_none hnil h u (hu.trans (List.drop_suffix n t))

/-! What is written is never empty. -/

theorem length_skipFiller_le (t : Text) : (skipFiller t).length ≤ t.length := by
  induction t with
  | nil => exact Nat.le.refl
  | cons c r ih =>
    rw [skipFiller]
    split
    · exact Nat.le_succ_of_le ih
    · exact Nat.le.refl

theorem length_dropWhile_le (p : Char → Bool) (t : Text) : (t.dropWhile p).length ≤ t.length :=
  (List.dropWhile_sublist p).length_le

theorem length_value?_le {t v rest : Text} (h : value? t = some (v,rest)) :
    rest.length ≤ t.length := by
  unfold value? at h
  simp only at h
  split at h
  · cases h
  · have hbehind : ((t.dropWhile isBlank).drop
        ((t.dropWhile isBlank).takeWhile (· = '=')).length).length ≤ t.length := by
      rw [List.length_drop]
      exact Nat.le_trans (Nat.sub_le _ _) (length_dropWhile_le _ _)
    generalize (t.dropWhile isBlank).drop
      ((t.dropWhile isBlank).takeWhile (· = '=')).length = behind at h hbehind
    have hv := length_dropWhile_le isBlank behind
    generalize behind.dropWhile isBlank = v at h hv
    have hbare := length_dropWhile_le isBare v
    split at h
    · cases h
      rw [List.length_drop]
      omega
    · split at h
      · cases h
        omega
      · split at h
        · cases h
          rw [List.length_drop]
          omega
        · split at h
          · cases h
            omega
          · cases h

theorem length_attribute?_le {before : Char} {t rest : Text} {w : Written}
    (h : attribute? before t = some (w,rest)) : rest.length ≤ t.length := by
  unfold attribute? at h
  split at h
  · rename_i c r
    split at h
    · simp only at h
      have hrest := length_dropWhile_le isNamePart r
      split at h
      · rename_i v behind hvalue
        cases h
        have hv := length_value?_le hvalue
        have hskip := length_skipFiller_le behind
        simp only [List.length_cons]
        omega
      · cases h
        have hskip := length_skipFiller_le (r.dropWhile isNamePart)
        simp only [List.length_cons]
        omega
    · cases h
  · cases h

theorem length_attributesFrom_le (fuel : Nat) (before : Char) (t : Text) :
    (attributesFrom fuel before t).2.length ≤ t.length := by
  induction fuel generalizing before t with
  | zero => exact Nat.le.refl
  | succ fuel ih =>
    rw [attributesFrom]
    split
    · exact Nat.le.refl
    · rename_i w rest hread
      exact Nat.le_trans (ih _ rest) (length_attribute?_le hread)

theorem length_opening_le (t : Text) : (opening t).rest.length ≤ t.length := by
  unfold opening
  refine Nat.le_trans (length_attributesFrom_le _ _ _) (Nat.le_trans (length_skipFiller_le _) ?_)
  rw [List.length_drop]
  exact Nat.sub_le _ _

theorem text_ne_nil_of_mem {name : String} {e : Entity} (h : (name,e) ∈ entityRowsRead) :
    e.text ≠ [] := by
  obtain ⟨row,-,hrow⟩ := List.mem_filterMap.mp h
  unfold readRow at hrow
  simp only at hrow
  split at hrow
  · cases hrow
    simp [splitAt_eq_splitOn]
  · cases hrow

theorem mem_of_entityTable {name : String} {e : Entity} (h : entityTable[name]? = some e) :
    (name,e) ∈ entityRowsRead := by
  rw [entityTable,Std.HashMap.ofList_eq_insertMany_empty,Std.HashMap.getElem?_insertMany_list,
    Std.HashMap.getElem?_empty,Option.or_none,List.findSomeRev?_eq_findSome?_reverse] at h
  obtain ⟨⟨k,v⟩,hmem,hfound⟩ := List.exists_of_findSome?_eq_some h
  simp only at hfound
  split at hfound
  · rename_i hk
    cases hfound
    rw [← beq_iff_eq.mp hk]
    exact List.mem_reverse.mp hmem
  · cases hfound

/-- A reference by name stands for some characters. -/
theorem text_ne_nil_of_entity? {name : Text} {e : Entity} (h : entity? name = some e) :
    e.text ≠ [] := by
  unfold entity? at h
  split at h
  · cases h; simp
  · cases h; simp
  · cases h; simp
  · cases h; simp
  · cases h; simp
  · exact text_ne_nil_of_mem (mem_of_entityTable h)

/-! Reading. -/

structure SoundReader (r : Reader) : Prop where
  builder : SoundBuilder r.builder
  fits : Fits r.builder r.literal

section Reader
variable {r r' : Reader} {t : Text}

theorem SoundReader.write (h : SoundReader r) (ht : t ≠ []) (rest : Text) :
    SoundReader { r with rest := rest, builder := r.builder.write t } :=
  ⟨h.builder.write ht,h.fits.write⟩

theorem SoundReader.marked (h : SoundReader r) (hl : r.literal = none) {kind : TextKind}
    (hkind : kind.isPlain = false) {parts : Option (Text × Text)}
    (hcontent : ∀ t rest, parts = some (t,rest) → kind ≠ .declaration → IsContent kind t)
    (hr : r.marked kind parts = .read r') : SoundReader r' := by
  have hfits := h.fits
  rw [hl] at hfits
  cases parts with
  | none => cases hr
  | some p =>
    obtain ⟨t,rest⟩ := p
    cases hr
    obtain ⟨hsound,hplain⟩ := h.builder.mark hfits hkind (hcontent t rest rfl)
    refine ⟨hsound,?_⟩
    simp only [hl]
    exact hplain

theorem rest_of_ending {o : Opening} {rest u : Text} (h : o.ending = (.broken u,rest)) :
    rest = o.rest := by
  unfold Opening.ending at h
  split at h
  · cases h
  · cases h
  · cases h
  · rename_i hrest
    split at h
    · cases h
    · cases h
      exact hrest.symm

theorem exists_attributes_of_look {o : Opening} {make : Dictionary Text → Reader}
    (h : o.look make = .read r) : ∃ attrs, o.attributes = .ok attrs ∧ make attrs = r := by
  unfold Opening.look at h
  split at h
  · exact ⟨_,‹_›,Look.read.inj h⟩
  · cases h

/-- Start tags. -/
theorem SoundReader.start (h : SoundReader r) (hl : r.literal = none) {c : Char}
    (hc : c.isAlpha = true) (hrest : r.rest = '<' :: c :: t)
    (hr : readStart r (c::t) = .read r') : SoundReader r' := by
  have hfits := h.fits
  rw [hl] at hfits
  have hname := isElementName_opening hc t
  unfold readStart at hr
  simp only at hr
  split at hr
  · obtain ⟨attrs,hattrs,rfl⟩ := exists_attributes_of_look hr
    obtain ⟨hsound,hplain⟩ := h.builder.openTag hfits hname (isKept_opening hattrs _)
    refine ⟨hsound,?_⟩
    simp only [hl]
    exact hplain
  · obtain ⟨attrs,hattrs,rfl⟩ := exists_attributes_of_look hr
    obtain ⟨hsound,hplain⟩ := h.builder.openAndClose hfits hname (isKept_opening hattrs _)
    refine ⟨hsound,?_⟩
    simp only [hl]
    exact hplain
  · cases hr
  · rename_i u rest hending
    obtain ⟨attrs,-,rfl⟩ := exists_attributes_of_look hr
    refine h.write ?_ rest
    have hshort := length_opening_le (c::t)
    rw [← rest_of_ending hending] at hshort
    have hlong : 0 < r.rest.length - rest.length := by
      rw [hrest]
      simp only [List.length_cons] at hshort ⊢
      omega
    rw [← List.length_pos_iff,List.length_take]
    omega

/-- End tags; inside a script or style all but its own are text. -/
theorem SoundReader.readEnd (h : SoundReader r) (hr : readEnd r t = .read r') : SoundReader r' := by
  unfold Html.readEnd at hr
  split at hr
  · cases hr
  · rename_i inside behind hcut
    have htext := h.write (t := "</".toList ++ inside ++ ['>']) (by simp) behind
    simp only at hr
    split at hr
    · rename_i name rest hplain
      split at hr
      · cases hr
        exact htext
      · rename_i hliteral
        cases hr
        have hname : ∀ l ∈ r.literal, l = Text.lower name := by
          intro l hmem
          rw [Option.mem_def.mp hmem] at hliteral
          simpa using hliteral
        exact ⟨(h.builder.close h.fits hname).1,(h.builder.close h.fits hname).2⟩
    · split at hr
      · cases hr
        exact htext
      · rename_i hsome
        have hl : r.literal = none := by simpa using hsome
        have hfits := h.fits
        rw [hl] at hfits
        split at hr
        · cases hr
          have hname : ∀ l ∈ (none : Option Text),
              l = Text.lower (t.takeWhile fun c => !endsName c) := by simp
          obtain ⟨hsound,hplain⟩ := h.builder.close hfits hname
          refine ⟨hsound,?_⟩
          simp only [hl]
          exact hplain
        · split at hr
          · cases hr
            exact ⟨h.builder,h.fits⟩
          · refine h.marked hl rfl (fun u rest hparts _ => ?_) hr
            cases hparts
            exact cutWhere_afterComment_of_not_mem (eq_append_of_cutAt hcut).2

/-- Marked sections. -/
theorem SoundReader.readSection (h : SoundReader r) (hl : r.literal = none)
    (hr : readSection r t = .read r') : SoundReader r' := by
  unfold Html.readSection at hr
  split at hr
  · cases hr
  · split at hr
    · cases hr
    · simp only at hr
      split at hr
      · cases hr
      · split at hr
        · cases hr
        · rename_i after? hclose
          have hend : after? = afterDoubleSection? ∨ after? = afterSingleSection? := by
            split at hclose
            · exact .inl (Option.some.inj hclose).symm
            · split at hclose
              · exact .inr (Option.some.inj hclose).symm
              · cases hclose
          split at hr
          · cases hr
          · rename_i inside rest hcut
            have hnone : cutWhere afterDoubleSection? inside = none := by
              rcases hend with rfl | rfl
              · exact cutWhere_of_cutWhere extends_afterDoubleSection hcut
              · exact cutWhere_afterDoubleSection
                  (cutWhere_of_cutWhere extends_afterSingleSection hcut)
            split at hr
            · refine h.marked hl rfl (fun u rest hparts _ => ?_) hr
              cases hparts
              exact cutWhere_drop rfl hnone 6
            · exact h.marked hl rfl (fun u rest _ hk => absurd rfl hk) hr

theorem SoundReader.readDeclaration (h : SoundReader r) (hl : r.literal = none)
    (hr : readDeclaration r t = .read r') : SoundReader r' := by
  unfold Html.readDeclaration at hr
  split at hr
  · refine h.marked hl rfl (fun u rest hparts _ => ?_) hr
    exact cutWhere_of_cutWhere extends_afterComment hparts
  · exact h.readSection hl hr
  · split at hr
    · split at hr
      · cases hr
      · rename_i inside rest hcut
        refine h.marked hl rfl (fun u rest hparts _ => ?_) hr
        cases hparts
        exact fun hmem => (eq_append_of_cutAt hcut).2 (List.mem_of_mem_drop hmem)
    · refine h.marked hl rfl (fun u rest hparts _ => ?_) hr
      exact cutWhere_afterComment_of_not_mem (eq_append_of_cutAt hparts).2

/-- What begins with an angle bracket; inside a script or style that is an end tag. -/
theorem SoundReader.readAngle (h : SoundReader r)
    (hplain : r.literal = none ∨ ∃ t, r.rest = '<' :: '/' :: t)
    (hr : readAngle r = some (.read r')) : SoundReader r' := by
  unfold Html.readAngle at hr
  split at hr
  · rename_i c t hrest
    by_cases hslash : c = '/'
    · subst hslash
      rw [if_neg (by decide),if_pos rfl] at hr
      exact h.readEnd (Option.some.inj hr)
    · have hl : r.literal = none := by
        refine hplain.resolve_right ?_
        rintro ⟨u,hu⟩
        rw [hu] at hrest
        exact hslash (List.cons.inj (List.cons.inj hrest).2).1.symm
      split at hr
      · rename_i hletter
        exact h.start hl hletter hrest (Option.some.inj hr)
      · split at hr
        · exact h.readDeclaration hl (Option.some.inj hr)
        · split at hr
          · refine h.marked hl rfl (fun u rest hparts _ => ?_) (Option.some.inj hr)
            exact (eq_append_of_cutAt hparts).2
          · cases hr
            exact h.write (by simp) _
  · cases hr

theorem SoundReader.readUnfinished (h : SoundReader r) (hne : r.rest ≠ []) :
    SoundReader (readUnfinished r) := by
  unfold Html.readUnfinished
  refine h.write ?_ _
  rw [← List.length_pos_iff,List.length_take]
  have hlong := List.length_pos_iff.mpr hne
  refine Nat.lt_min.mpr ⟨?_,hlong⟩
  split
  · exact Nat.succ_pos _
  · split
    · exact Nat.succ_pos _
    · exact Nat.one_pos

/-- Whatever reading comes to is sound. -/
def Step.Sound : Step → Prop
  | .more r | .stop r => SoundReader r
  | .refused _ => True

theorem SoundReader.readReference (h : SoundReader r) (final : Bool) : (readReference final r).Sound := by
  unfold Html.readReference
  simp only
  split
  · split
    · split
      · exact h.write (by simp) _
      · trivial
    · show SoundReader _
      split
      · exact h.write (by simp) _
      · exact h
  · split
    · refine h.write ?_ _
      split
      · rename_i e hentity
        exact text_ne_nil_of_entity? hentity
      · simp
    · split
      · show SoundReader _
        split
        · exact ⟨h.builder,h.fits⟩
        · exact h
      · split
        · exact h
        · exact h.write (by simp) _
  · exact h

theorem exists_of_closesLiteral {name : Text} (h : closesLiteral name t = true) :
    ∃ u, t = '<' :: '/' :: u := by
  unfold closesLiteral at h
  split at h
  · exact ⟨_,rfl⟩
  · cases h

theorem closesLiteral_of_cutLiteral {name a b : Text} (h : cutLiteral name t = some (a,b)) :
    closesLiteral name b = true := by
  induction t generalizing a with
  | nil => cases h
  | cons c r ih =>
    rw [cutLiteral] at h
    split at h
    · cases h
      assumption
    · obtain ⟨⟨a,b'⟩,hr,he⟩ := Option.map_eq_some_iff.mp h
      cases he
      exact ih hr

/-- One step of reading. -/
theorem SoundReader.step (h : SoundReader r) (final : Bool) : (step final r).Sound := by
  unfold Html.step
  split
  · exact h
  · rename_i t rest hplain
    have hr : SoundReader { r with
        rest := rest
        builder := if t.isEmpty then r.builder else r.builder.write t } := by
      cases t with
      | nil => exact ⟨h.builder,h.fits⟩
      | cons c t => exact h.write (List.cons_ne_nil c t) rest
    have hend : r.literal = none ∨ ∃ u, rest = '<' :: '/' :: u := by
      cases hl : r.literal with
      | none => exact .inl rfl
      | some name =>
        rw [plainPart,hl] at hplain
        exact .inr (exists_of_closesLiteral (closesLiteral_of_cutLiteral hplain))
    simp only
    split
    · exact hr
    · rename_i hne
      split
      · exact hr.readReference final
      · split
        · exact hr
        · rename_i r' hangle
          exact hr.readAngle hend hangle
        · trivial
        · split
          · exact hr.readUnfinished (by simpa using hne)
          · exact hr

theorem SoundReader.readFrom (h : SoundReader r) {final : Bool} {fuel : Nat}
    (hr : readFrom final fuel r = .ok r') : SoundReader r' := by
  induction fuel generalizing r with
  | zero =>
    cases hr
    exact h
  | succ fuel ih =>
    rw [Html.readFrom] at hr
    have hstep := h.step final
    split at hr
    · cases hr
      exact h
    · split at hr
      · cases hr
      · rename_i next hnext
        rw [hnext] at hstep
        cases hr
        exact hstep
      · rename_i next hnext
        rw [hnext] at hstep
        exact ih hstep hr

end Reader

/-- All that is read of a text is sound. -/
theorem sound_of_parse {t : Text} {ns : List Node} (h : parse t = .ok ns) : ∀ n ∈ ns, Sound [] n := by
  unfold parse at h
  obtain ⟨r₁,hfirst,h⟩ := bind_eq_ok_iff.mp h
  obtain ⟨r,hsecond,h⟩ := bind_eq_ok_iff.mp h
  have hstart : SoundReader ⟨t,.empty,none⟩ := ⟨soundBuilder_empty,by simp [Fits,Builder.names,Builder.empty]⟩
  have hr := (hstart.readFrom hfirst).readFrom hsecond
  simp only at h
  cases h
  split
  · exact hr.builder.finish hr.fits
  · rename_i hrest
    have hne : r.rest ≠ [] := by
      intro hnil
      exact hrest (by simp [hnil])
    exact (hr.builder.write hne).finish hr.fits.write

end Longform.Html
