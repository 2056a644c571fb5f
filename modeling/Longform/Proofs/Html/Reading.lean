import Mathlib.Data.List.TakeWhile
import Longform.Html.Parse
import Longform.Proofs.Html.StartTag
import Longform.Proofs.Text.Search
import Longform.Proofs.Text.Word

/-! Reading markup piece by piece. A piece that is complete in itself has one effect on the tree under
construction, whatever stands before and behind it. -/
namespace Longform.Html

/-- Reading comes from one place to another, in no more steps than there are characters between. -/
def Reaches (r r' : Reader) : Prop :=
  ∃ n, n + r'.rest.length ≤ r.rest.length ∧
    ∀ fuel, readFrom false (n + fuel + 1) r = readFrom false (fuel + 1) r'

theorem Reaches.refl (r : Reader) : Reaches r r :=
  ⟨0,by simp,fun fuel => by rw [Nat.zero_add]⟩

theorem Reaches.trans {r s t : Reader} (h : Reaches r s) (h' : Reaches s t) : Reaches r t := by
  obtain ⟨m,hm,hrs⟩ := h
  obtain ⟨n,hn,hst⟩ := h'
  refine ⟨m + n,by omega,fun fuel => ?_⟩
  rw [Nat.add_assoc m n fuel,hrs (n + fuel),hst fuel]

theorem reaches_of_step {r r' : Reader} (h : step false r = .more r')
    (hlt : r'.rest.length < r.rest.length) : Reaches r r' := by
  refine ⟨1,by omega,fun fuel => ?_⟩
  have hne : r.rest.isEmpty = false := by
    cases hr : r.rest with
    | nil => simp [hr] at hlt
    | cons c t => rfl
  have hfuel : 1 + fuel + 1 = (fuel + 1) + 1 := by omega
  rw [hfuel,readFrom]
  simp only [hne,Bool.false_eq_true,if_false,h]

/-- A piece of markup that has an effect of its own. -/
def Acts (t : Text) (f : Builder → Builder) : Prop :=
  ∀ rest b, Reaches ⟨t ++ rest,b,none⟩ ⟨rest,f b,none⟩

section Acts
variable {t u : Text} {f g : Builder → Builder}

theorem acts_nil : Acts [] id := fun _ _ => .refl _

theorem Acts.append (ht : Acts t f) (hu : Acts u g) : Acts (t ++ u) (fun b => g (f b)) := by
  intro rest b
  have h := ht (u ++ rest) b
  rw [← List.append_assoc] at h
  exact h.trans (hu rest (f b))

/-- The tree of a text whose effect is known. -/
theorem parse_of_acts (h : Acts t f) : parse t = .ok (f .empty).finish := by
  obtain ⟨n,hn,hread⟩ := h [] .empty
  simp only [List.append_nil,List.length_nil,Nat.add_zero] at hn hread
  have hfuel : t.length + 1 = n + (t.length - n) + 1 := by omega
  have hfirst : readFrom false (t.length + 1) ⟨t,.empty,none⟩ = .ok ⟨[],f .empty,none⟩ := by
    rw [hfuel,hread]
    rfl
  unfold parse
  rw [hfirst]
  rfl

end Acts

/-! Text. -/

namespace Builder
variable {b : Builder} {s t : Text}

/-- Text that is taken in; nothing happens when there is none. -/
def put (t : Text) (b : Builder) : Builder := if t.isEmpty then b else b.write t

@[simp] theorem put_nil : b.put [] = b := rfl
@[simp] theorem put_cons {c : Char} : b.put (c::t) = b.write (c::t) := rfl

theorem write_write : (b.write s).write t = b.write (s ++ t) := by simp [write]

theorem put_append : b.put (s ++ t) = (b.put s).put t := by
  cases s with
  | nil => rfl
  | cons c s =>
    cases t with
    | nil => simp
    | cons d t => rw [put_cons,put_cons,write_write]; rfl

end Builder

/-- Characters that begin no construct. -/
def IsPlain (c : Char) : Prop := c ≠ '<' ∧ c ≠ '&'

theorem forall_isPlain_iff {t : Text} : (∀ c ∈ t, IsPlain c) ↔ '<' ∉ t ∧ '&' ∉ t := by
  constructor
  · intro h
    exact ⟨fun hlt => (h _ hlt).1 rfl,fun hamp => (h _ hamp).2 rfl⟩
  · rintro ⟨hlt,hamp⟩ c hc
    exact ⟨fun h => hlt (h ▸ hc),fun h => hamp (h ▸ hc)⟩

theorem step_plain {c : Char} (hc : IsPlain c) (rest : Text) (b : Builder) :
    step false ⟨c::rest,b,none⟩ = step false ⟨rest,b.write [c],none⟩ := by
  have hplain : (c ≠ '<' && c ≠ '&') = true := by simp [hc.1,hc.2]
  have hpart : plainPart ⟨c::rest,b,none⟩ =
      some (c::rest.takeWhile (fun c => c ≠ '<' && c ≠ '&'),
        rest.dropWhile (fun c => c ≠ '<' && c ≠ '&')) := by
    simp only [plainPart,List.takeWhile_cons,List.dropWhile_cons,hplain,if_true]
  have hpart' : plainPart ⟨rest,b.write [c],none⟩ =
      some (rest.takeWhile (fun c => c ≠ '<' && c ≠ '&'),
        rest.dropWhile (fun c => c ≠ '<' && c ≠ '&')) := rfl
  have hwrite : ∀ x : Text, (if x.isEmpty = true then b.write [c] else (b.write [c]).write x) =
      b.write (c::x) := by
    intro x
    cases x with
    | nil => rfl
    | cons d x => exact Builder.write_write
  unfold step
  rw [hpart,hpart']
  simp only [hwrite,List.isEmpty_cons,Bool.false_eq_true,if_false]

theorem acts_char {c : Char} (hc : IsPlain c) : Acts [c] (Builder.put [c]) := by
  intro rest b
  refine ⟨0,by simp,fun fuel => ?_⟩
  rw [Nat.zero_add]
  by_cases hrest : rest = []
  · subst hrest
    have hstep : step false ⟨[c],b,none⟩ = .stop ⟨[],b.write [c],none⟩ := by
      have hplain : (c ≠ '<' && c ≠ '&') = true := by simp [hc.1,hc.2]
      simp [step,plainPart,hc.1,hc.2]
    simp only [List.append_nil,readFrom,List.isEmpty_cons,Bool.false_eq_true,if_false,hstep]
    rfl
  · have hempty : rest.isEmpty = false := by simpa using hrest
    simp only [List.cons_append,List.nil_append,readFrom,List.isEmpty_cons,hempty,
      Bool.false_eq_true,if_false,step_plain hc rest]
    rfl

theorem acts_reference {r : Text} {c : Char} (h : (r,c) ∈ references) : Acts r (Builder.put [c]) := by
  intro rest b
  have hstep : step false ⟨r ++ rest,b,none⟩ = .more ⟨rest,b.write [c],none⟩ := by
    simp only [references,List.mem_cons,Prod.mk.injEq,List.not_mem_nil,or_false] at h
    rcases h with ⟨rfl,rfl⟩ | ⟨rfl,rfl⟩ | ⟨rfl,rfl⟩ | ⟨rfl,rfl⟩ | ⟨rfl,rfl⟩ <;> rfl
  have hr : 0 < r.length := by
    simp only [references,List.mem_cons,Prod.mk.injEq,List.not_mem_nil,or_false] at h
    rcases h with ⟨rfl,-⟩ | ⟨rfl,-⟩ | ⟨rfl,-⟩ | ⟨rfl,-⟩ | ⟨rfl,-⟩ <;> decide
  exact reaches_of_step hstep (by simpa using hr)

/-- What spells a text is read as that text. -/
theorem acts_of_spells {s t : Text} (h : Spells s t) (hs : '<' ∉ s) : Acts s (Builder.put t) := by
  induction h with
  | nil => exact acts_nil
  | @char c s t plain _ ih =>
    rw [List.mem_cons,not_or] at hs
    have hput : (fun b => (Builder.put [c] b).put t) = Builder.put (c::t) := by
      funext b
      rw [← Builder.put_append]
      rfl
    rw [← hput]
    exact (acts_char ⟨Ne.symm hs.1,plain⟩).append (ih hs.2)
  | @reference r c s t known _ ih =>
    rw [List.mem_append,not_or] at hs
    have hput : (fun b => (Builder.put [c] b).put t) = Builder.put (c::t) := by
      funext b
      rw [← Builder.put_append]
      rfl
    rw [← hput]
    exact (acts_reference known).append (ih hs.2)

theorem acts_plain {t : Text} (h : ∀ c ∈ t, IsPlain c) : Acts t (Builder.put t) :=
  acts_of_spells (spells_self fun hc => (h _ hc).2 rfl) fun hc => (h _ hc).1 rfl

theorem lt_not_mem_escapeContent (t : Text) : '<' ∉ Text.escapeContent t := by
  intro h
  obtain ⟨c,-,hc⟩ := List.mem_flatMap.mp h
  unfold Text.escapeContentChar at hc
  split at hc
  · exact absurd hc (by decide)
  split at hc
  · exact absurd hc (by decide)
  split at hc
  · exact absurd hc (by decide)
  · rename_i hne _
    exact hne (List.mem_singleton.mp hc).symm

theorem acts_escapeContent (t : Text) : Acts (Text.escapeContent t) (Builder.put t) :=
  acts_of_spells (spells_escapeContent t) (lt_not_mem_escapeContent t)

/-! Tags. -/

/-- A construct that is read at once. -/
theorem reaches_of_angle {t rest : Text} {b b' : Builder} {l : Option Text}
    (h : readAngle ⟨'<' :: t,b,none⟩ = some (.read ⟨rest,b',l⟩)) (hlt : rest.length ≤ t.length) :
    Reaches ⟨'<' :: t,b,none⟩ ⟨rest,b',l⟩ := by
  refine reaches_of_step ?_ (Nat.lt_succ_of_le hlt)
  have hpart : plainPart ⟨'<' :: t,b,none⟩ = some ([],'<' :: t) := by simp [plainPart]
  unfold step
  rw [hpart]
  simp only [List.isEmpty_nil,if_true,h]
  rfl

theorem acts_of_angle {body : Text} {f : Builder → Builder}
    (h : ∀ rest b, readAngle ⟨'<' :: (body ++ rest),b,none⟩ = some (.read ⟨rest,f b,none⟩)) :
    Acts ('<' :: body) f := fun rest b => reaches_of_angle (h rest b) (by simp)

/-- Markup is refused for what is refused in it, whatever has an effect before. -/
theorem parse_of_refused {p t : Text} {f : Builder → Builder} {e : Fault} (hp : Acts p f) (hne : t ≠ [])
    (h : step false ⟨t,f .empty,none⟩ = .refused e) : parse (p ++ t) = .error e := by
  obtain ⟨n,hn,hread⟩ := hp t .empty
  simp only [List.length_append] at hn
  have hfuel : (p ++ t).length + 1 = n + (p.length - n + t.length) + 1 := by
    rw [List.length_append]
    omega
  have hfirst : readFrom false ((p ++ t).length + 1) ⟨p ++ t,.empty,none⟩ = .error e := by
    rw [hfuel,hread,readFrom]
    simp only [List.isEmpty_iff,hne,if_false,h]
  unfold parse
  rw [hfirst]
  rfl

/-- The name of an element as it is kept. -/
structure IsElementName (name : Text) : Prop where
  letter : ∃ c r, name = c::r ∧ c.isAlpha = true
  chars : IsTagName name
  lower : Text.lower name = name

/-- An end tag with this name is understood: no blanks end the name where the reader passes over
them. -/
def Closable (name : Text) : Prop :=
  (name.dropWhile isEndNameChar).all Text.isBlank = true → name.dropWhile isEndNameChar = []

instance (name : Text) : Decidable (Closable name) := inferInstanceAs (Decidable (_ → _))

section Tags
variable {name : Text} {quote : Text → Text} {attrs : Dictionary Text}

theorem readAngle_letter {c : Char} (h : c.isAlpha = true) (t : Text) (b : Builder) (l : Option Text) :
    readAngle ⟨'<' :: c::t,b,l⟩ = some (readStart ⟨'<' :: c::t,b,l⟩ (c::t)) := by
  simp only [readAngle,isLetter,h,if_true]

/-- The attributes that are read of a tag. -/
def readAttributes (attrs : Dictionary Text) : Dictionary Text :=
  Dictionary.ofEntries (attrs.map fun a => (Text.lower a.1,a.2))

theorem readAngle_start (hname : IsElementName name) (h : Attributable quote attrs) {close rest : Text}
    {ending : Ending} (hclose : TagEnd close ending rest) (b : Builder) :
    ∃ o : Opening, Text.lower o.name = name ∧ o.attributes = .ok (readAttributes attrs) ∧
      o.ending = (ending,rest) ∧
      opening (name ++ (attributesText quote attrs ++ close)) = o ∧
      readAngle ⟨'<' :: (name ++ (attributesText quote attrs ++ close)),b,none⟩ =
        some (readStart ⟨'<' :: (name ++ (attributesText quote attrs ++ close)),b,none⟩
          (name ++ (attributesText quote attrs ++ close))) := by
  obtain ⟨c,r,rfl,hc⟩ := hname.letter
  exact ⟨_,hname.lower,attributes_text h (c::r) close,hclose.ending_eq _ _,
    opening_text hname.chars h.separable hclose,readAngle_letter hc _ b none⟩

/-- A start tag with a value that is refused. -/
theorem step_refused (hname : IsElementName name) (h : Separable quote attrs) {rest : Text} {e : Fault}
    (hattrs : (Opening.mk name (attrs.map fun a => ⟨a.1,some (quote a.2)⟩) ('>' :: rest)).attributes =
      .error e) (b : Builder) :
    step false ⟨'<' :: (name ++ (attributesText quote attrs ++ '>' :: rest)),b,none⟩ = .refused e := by
  have hopening := opening_text hname.chars h (.closed rest)
  obtain ⟨c,r,rfl,hc⟩ := hname.letter
  have hangle : readAngle ⟨'<' :: (c::r ++ (attributesText quote attrs ++ '>' :: rest)),b,none⟩ =
      some (.refused e) := by
    rw [List.cons_append,readAngle_letter hc,readStart,← List.cons_append]
    simp only [hopening,(TagEnd.closed rest).ending_eq,Opening.look,hattrs]
  have hpart : ∀ t, plainPart ⟨'<' :: t,b,none⟩ = some ([],'<' :: t) := fun t => by simp [plainPart]
  unfold step
  rw [hpart]
  simp only [List.isEmpty_nil,if_true,hangle]
  rfl

theorem reaches_openTag (hname : IsElementName name) (h : Attributable quote attrs) (rest : Text)
    (b : Builder) :
    Reaches ⟨'<' :: (name ++ (attributesText quote attrs ++ '>' :: rest)),b,none⟩
      ⟨rest,b.openTag name (readAttributes attrs),if isLiteralName name then some name else none⟩ := by
  obtain ⟨o,hlower,hattrs,hending,ho,hread⟩ := readAngle_start hname h (.closed rest) b
  refine reaches_of_angle ?_ (by simp; omega)
  rw [hread,readStart]
  simp only [ho,hending,hlower,Opening.look,hattrs]

theorem acts_openTag (hname : IsElementName name) (h : Attributable quote attrs)
    (hliteral : isLiteralName name = false) :
    Acts ('<' :: (name ++ (attributesText quote attrs ++ ['>'])))
      (Builder.openTag name (readAttributes attrs)) := by
  intro rest b
  have hreach := reaches_openTag hname h rest b
  simpa [hliteral] using hreach

theorem acts_openAndClose (hname : IsElementName name) (h : Attributable quote attrs) :
    Acts ('<' :: (name ++ (attributesText quote attrs ++ ['/','>'])))
      (Builder.openAndClose name (readAttributes attrs)) := by
  refine acts_of_angle fun rest b => ?_
  obtain ⟨o,hlower,hattrs,hending,ho,hread⟩ := readAngle_start hname h (.selfClosed rest) b
  have happ : name ++ (attributesText quote attrs ++ ['/','>']) ++ rest =
      name ++ (attributesText quote attrs ++ '/' :: '>' :: rest) := by simp
  rw [happ,hread,readStart]
  simp only [ho,hending,hlower,Opening.look,hattrs]

theorem gt_not_mem_of_isTagName (h : IsTagName name) : '>' ∉ name := fun hmem =>
  absurd (h _ hmem) (by decide)

theorem isBlank_of_isAlpha {c : Char} (h : c.isAlpha = true) : Text.isBlank c = false := by
  have hrange := Text.toNat_of_isAlpha h
  simp only [Text.isBlank,Bool.or_eq_false_iff,Bool.and_eq_false_iff,decide_eq_false_iff_not,
    beq_eq_false_iff_ne]
  omega

/-- A character that ends a run also ends the run of what stands before it. -/
theorem dropWhile_append_cons {p : Char → Bool} {x : Char} (h : p x = false) (s rest : Text) :
    (s ++ x::rest).dropWhile p = s.dropWhile p ++ x::rest ∧
      (s ++ x::rest).takeWhile p = s.takeWhile p := by
  induction s with
  | nil => simp [h]
  | cons c s ih =>
    cases hc : p c with
    | true => simpa [hc] using ih
    | false => simp [hc]

theorem drop_length_takeWhile (p : Char → Bool) (t : Text) :
    t.drop (t.takeWhile p).length = t.dropWhile p := by
  have h := congrArg (List.drop (t.takeWhile p).length) (List.takeWhile_append_dropWhile (p:=p) (l:=t))
  rw [List.drop_left] at h
  exact h.symm

/-- What the reader finds behind the name of an end tag. -/
theorem plainEnd?_letter {c : Char} (hc : c.isAlpha = true) (t : Text) :
    plainEnd? (c::t) = match ((c::t).dropWhile isEndNameChar).dropWhile Text.isBlank with
      | '>' :: rest => some ((c::t).takeWhile isEndNameChar,rest)
      | _ => none := by
  have hdrop : (c::t).dropWhile Text.isBlank = c::t := by simp [isBlank_of_isAlpha hc]
  unfold plainEnd?
  simp only [hdrop,drop_length_takeWhile]
  exact if_pos hc

/-- The name in an end tag, if the reader takes it for a plain one. -/
theorem plainEnd?_append (hname : IsElementName name) (hclose : Closable name) (rest : Text) :
    plainEnd? (name ++ '>' :: rest) =
      if name.dropWhile isEndNameChar = [] then some (name,rest) else none := by
  have hgt : isEndNameChar '>' = false := by decide
  have hblank : Text.isBlank '>' = false := by decide
  have hend := dropWhile_append_cons hgt name rest
  have hbehind := (dropWhile_append_cons hblank (name.dropWhile isEndNameChar) rest).1
  obtain ⟨c,r,hcons,hc⟩ := hname.letter
  have hplain := plainEnd?_letter hc (r ++ '>' :: rest)
  rw [← List.cons_append,← hcons,hend.1,hend.2,hbehind] at hplain
  rw [hplain]
  by_cases hnone : name.dropWhile isEndNameChar = []
  · have htake : name.takeWhile isEndNameChar = name :=
      List.takeWhile_eq_self_iff.mpr (List.dropWhile_eq_nil_iff.mp hnone)
    rw [if_pos hnone,hnone,htake]
    rfl
  · rw [if_neg hnone]
    rcases hx : (name.dropWhile isEndNameChar).dropWhile Text.isBlank with _ | ⟨x,y⟩
    · refine absurd (hclose ?_) hnone
      exact List.all_eq_true.mpr (List.dropWhile_eq_nil_iff.mp hx)
    · have hmem : x ∈ name := by
        have hx' : x ∈ (name.dropWhile isEndNameChar).dropWhile Text.isBlank := by simp [hx]
        exact (List.dropWhile_suffix _).subset ((List.dropWhile_suffix _).subset hx')
      have hne : x ≠ '>' := fun he => gt_not_mem_of_isTagName hname.chars (he ▸ hmem)
      simp only [List.cons_append]
      split
      · rename_i heq
        exact absurd (List.cons.inj heq).1 hne
      · rfl

theorem acts_close (hname : IsElementName name) (hclose : Closable name) :
    Acts ('<' :: '/' :: (name ++ ['>'])) (Builder.close name) := by
  refine acts_of_angle fun rest b => ?_
  have happ : '/' :: (name ++ ['>']) ++ rest = '/' :: (name ++ '>' :: rest) := by simp
  have hletter : isLetter '/' = false := by decide
  have hcut := Text.cutAt_append (gt_not_mem_of_isTagName hname.chars) rest
  have hplain := plainEnd?_append hname hclose rest
  have hread : readAngle ⟨'<' :: '/' :: (name ++ '>' :: rest),b,none⟩ =
      some (readEnd ⟨'<' :: '/' :: (name ++ '>' :: rest),b,none⟩ (name ++ '>' :: rest)) := by
    simp only [readAngle,hletter,Bool.false_eq_true,if_false,if_true]
  rw [happ,hread,readEnd,hcut]
  simp only [hplain]
  by_cases hend : name.dropWhile isEndNameChar = []
  · simp [hend,hname.lower]
  · obtain ⟨c,r,hcons,hc⟩ := hname.letter
    have hhead : (name ++ '>' :: rest).head?.any isLetter = true := by
      rw [hcons]
      exact hc
    have htake : (name ++ '>' :: rest).takeWhile (fun c => !endsName c) = name := by
      refine (Text.takeWhile_append_stop (fun d hd => ?_) (by simp [endsName])).1
      simp [hname.chars d hd]
    simp only [if_neg hend,Option.isSome_none,Bool.false_eq_true,if_false,hhead,if_true,htake,
      hname.lower]

end Tags

/-! Texts of a kind of their own. -/

/-- What ends a construct ends it where it is written, when the content holds no end and the two make
none together. -/
theorem cutWhere_append {after? : Text → Option Text} {t close rest : Text}
    (hnone : cutWhere after? t = none) (hclose : after? (close ++ rest) = some rest) (hne : close ≠ [])
    (hext : ∀ s, s ≠ [] → after? s = none → after? (s ++ (close ++ rest)) = none) :
    cutWhere after? (t ++ (close ++ rest)) = some (t,rest) := by
  induction t with
  | nil =>
    obtain ⟨c,r,rfl⟩ := List.exists_cons_of_ne_nil hne
    rw [List.cons_append] at hclose
    rw [List.nil_append,List.cons_append,cutWhere,hclose]
  | cons c t ih =>
    rw [cutWhere] at hnone
    split at hnone
    · cases hnone
    rename_i hafter
    have hmore := hext _ (List.cons_ne_nil c t) hafter
    rw [List.cons_append] at hmore
    rw [List.cons_append,cutWhere,hmore]
    simp only [ih (Option.map_eq_none_iff.mp hnone),Option.map_some]

/-- Whether a closing bracket ends what stands before it is decided before a character that is neither
blank nor such a bracket. -/
theorem afterClosing?_append {s rest : Text} {x : Char} (h : afterClosing? s = none)
    (hblank : Text.isBlank x = false) (hx : x ≠ '>') : afterClosing? (s ++ x::rest) = none := by
  unfold afterClosing? at h ⊢
  rw [(dropWhile_append_cons hblank s rest).1]
  rcases hs : s.dropWhile Text.isBlank with _ | ⟨y,r⟩
  · rw [List.nil_append]
    split
    · rename_i heq
      exact absurd (List.cons.inj heq).1 hx
    · rfl
  · rw [hs] at h
    rw [List.cons_append]
    split
    · rename_i heq
      rw [(List.cons.inj heq).1] at h
      cases h
    · rfl

theorem acts_comment {t : Text} (h : cutWhere afterComment? t = none) :
    Acts ("<!--".toList ++ t ++ "-->".toList) (Builder.mark .comment t) := by
  have hread : "<!--".toList ++ t ++ "-->".toList = '<' :: '!' :: '-' :: '-' :: (t ++ "-->".toList) := by
    rw [List.append_assoc]
    rfl
  rw [hread]
  refine acts_of_angle fun rest b => ?_
  have hcut : cutWhere afterComment? (t ++ ("-->".toList ++ rest)) = some (t,rest) := by
    refine cutWhere_append h rfl (by decide) fun s hne hs => ?_
    match s,hne with
    | [c],_ =>
      by_cases hc : c = '-'
      · subst hc
        rfl
      · simp [afterComment?,hc]
    | c::d::s,_ =>
      by_cases hcd : c = '-' ∧ d = '-'
      · obtain ⟨rfl,rfl⟩ := hcd
        exact afterClosing?_append (x := '-') hs (by decide) (by decide)
      · unfold afterComment?
        split
        · rename_i heq
          simp only [List.cons_append,List.cons.injEq] at heq
          exact absurd ⟨heq.1,heq.2.1⟩ hcd
        · rfl
  have happ : '!' :: '-' :: '-' :: (t ++ "-->".toList) ++ rest =
      '!' :: '-' :: '-' :: (t ++ ("-->".toList ++ rest)) := by simp
  rw [happ]
  have hangle : ∀ u, readAngle ⟨'<' :: '!' :: '-' :: '-' :: u,b,none⟩ =
      some (Reader.marked ⟨'<' :: '!' :: '-' :: '-' :: u,b,none⟩ .comment (cutWhere afterComment? u)) :=
    fun _ => rfl
  rw [hangle,hcut]
  rfl

theorem afterSingleSection?_append {s rest : Text} (h : afterSingleSection? s = none) (hne : s ≠ []) :
    afterSingleSection? (s ++ ']' :: rest) = none := by
  obtain ⟨c,r,rfl⟩ := List.exists_cons_of_ne_nil hne
  by_cases hc : c = ']'
  · subst hc
    exact afterClosing?_append (x := ']') h (by decide) (by decide)
  · simp [afterSingleSection?,hc]

/-- What ends a marked section does so in front of its own brackets too. -/
theorem afterDoubleSection?_append {s rest : Text} (h : afterDoubleSection? s = none) (hne : s ≠ []) :
    afterDoubleSection? (s ++ ("]]>".toList ++ rest)) = none := by
  have hblank : Text.isBlank ']' = false := by decide
  obtain ⟨c,r,rfl⟩ := List.exists_cons_of_ne_nil hne
  by_cases hc : c = ']'
  · subst hc
    have hr : afterSingleSection? (r.dropWhile Text.isBlank) = none := h
    have hdrop := (dropWhile_append_cons hblank r (']' :: '>' :: rest)).1
    show afterSingleSection? ((r ++ ']' :: ']' :: '>' :: rest).dropWhile Text.isBlank) = none
    rw [hdrop]
    by_cases hnil : r.dropWhile Text.isBlank = []
    · rw [hnil]
      rfl
    · exact afterSingleSection?_append hr hnil
  · simp [afterDoubleSection?,hc]

theorem readSection_double {r : Reader} {c : Char} {t inside rest : Text} (hc : c.isAlpha = true)
    (hname : Text.isOneOf (Text.lower ((c::t).takeWhile isSectionChar)) doubleSections = true)
    (hmore : ((c::t).drop (Text.lower ((c::t).takeWhile isSectionChar)).length).all Text.isBlank = false)
    (hcut : cutWhere afterDoubleSection? (c::t) = some (inside,rest))
    (hcase : Text.upper (inside.take 6) = "CDATA[".toList) :
    readSection r (c::t) = r.marked .rawData (some (inside.drop 6,rest)) := by
  unfold readSection
  simp only [hc,hname,hmore,hcut,hcase,Bool.not_true,Bool.false_eq_true,if_false,if_true]

theorem acts_rawData {t : Text} (h : cutWhere afterDoubleSection? t = none) :
    Acts ("<![CDATA[".toList ++ t ++ "]]>".toList) (Builder.mark .rawData t) := by
  have hread : "<![CDATA[".toList ++ t ++ "]]>".toList =
      '<' :: '!' :: '[' :: ("CDATA[".toList ++ (t ++ "]]>".toList)) := by
    rw [List.append_assoc]
    rfl
  rw [hread]
  refine acts_of_angle fun rest b => ?_
  have hnone : cutWhere afterDoubleSection? ("CDATA[".toList ++ t) = none := by
    have hletters : "CDATA[".toList = ['C','D','A','T','A','['] := rfl
    simp [hletters,cutWhere,afterDoubleSection?,h]
  have hcut : cutWhere afterDoubleSection? ("CDATA[".toList ++ (t ++ ("]]>".toList ++ rest))) =
      some ("CDATA[".toList ++ t,rest) := by
    rw [← List.append_assoc]
    exact cutWhere_append hnone rfl (by decide) fun s hne hs => afterDoubleSection?_append hs hne
  have happ : '!' :: '[' :: ("CDATA[".toList ++ (t ++ "]]>".toList)) ++ rest =
      '!' :: '[' :: ("CDATA[".toList ++ (t ++ ("]]>".toList ++ rest))) := by simp
  have hangle : ∀ u, readAngle ⟨'<' :: '!' :: '[' :: ("CDATA[".toList ++ u),b,none⟩ =
      some (readSection ⟨'<' :: '!' :: '[' :: ("CDATA[".toList ++ u),b,none⟩
        ("CDATA[".toList ++ u)) := fun _ => rfl
  rw [happ,hangle]
  exact congrArg some (readSection_double (by decide) rfl rfl hcut rfl)

theorem acts_instruction {t : Text} (h : '>' ∉ t) :
    Acts ("<?".toList ++ t ++ ['>']) (Builder.mark .instruction t) := by
  have hread : "<?".toList ++ t ++ ['>'] = '<' :: '?' :: (t ++ ['>']) := rfl
  rw [hread]
  refine acts_of_angle fun rest b => ?_
  have happ : '?' :: (t ++ ['>']) ++ rest = '?' :: (t ++ '>' :: rest) := by simp
  have hangle : ∀ u, readAngle ⟨'<' :: '?' :: u,b,none⟩ =
      some (Reader.marked ⟨'<' :: '?' :: u,b,none⟩ .instruction (Text.cutAt '>' u)) := fun _ => rfl
  rw [happ,hangle,Text.cutAt_append h]
  rfl

theorem readDeclaration_doctype {r : Reader} {c : Char} {t inside rest : Text}
    (hc : c ≠ '-' ∧ c ≠ '[') (hname : Text.lower ((c::t).take 7) = "doctype".toList)
    (hcut : Text.cutAt '>' ((c::t).drop 7) = some (inside,rest)) :
    readDeclaration r (c::t) = r.marked .doctype (some (inside.drop 1,rest)) := by
  unfold readDeclaration
  split
  · rename_i heq
    exact absurd (List.cons.inj heq).1 hc.1
  · rename_i heq
    exact absurd (List.cons.inj heq).1 hc.2
  · rw [if_pos hname,hcut]

theorem acts_doctype {t : Text} (h : '>' ∉ t) :
    Acts ("<!DOCTYPE ".toList ++ t ++ ['>']) (Builder.mark .doctype t) := by
  have hread : "<!DOCTYPE ".toList ++ t ++ ['>'] =
      '<' :: '!' :: ("DOCTYPE".toList ++ ' ' :: (t ++ ['>'])) := by
    rw [List.append_assoc]
    rfl
  rw [hread]
  refine acts_of_angle fun rest b => ?_
  have happ : '!' :: ("DOCTYPE".toList ++ ' ' :: (t ++ ['>'])) ++ rest =
      '!' :: 'D' :: ("OCTYPE".toList ++ (' ' :: t ++ '>' :: rest)) := by simp
  have hcut : Text.cutAt '>' (' ' :: t ++ '>' :: rest) = some (' ' :: t,rest) :=
    Text.cutAt_append (by simpa using h) rest
  have hangle : ∀ u, readAngle ⟨'<' :: '!' :: 'D' :: u,b,none⟩ =
      some (readDeclaration ⟨'<' :: '!' :: 'D' :: u,b,none⟩ ('D' :: u)) := fun _ => rfl
  have hdoctype : ∀ r : Reader, readDeclaration r
      ('D' :: ("OCTYPE".toList ++ (' ' :: t ++ '>' :: rest))) =
        r.marked .doctype (some ((' ' :: t).drop 1,rest)) :=
    fun _ => readDeclaration_doctype (by decide) rfl hcut
  rw [happ,hangle,hdoctype]
  rfl

/-! Scripts and styles. -/

section Literal
variable {name : Text}

/-- An end tag of a script or style does not reach into another construct. -/
theorem closesLiteral_append (hname : '<' ∉ name) {s : Text} (h : closesLiteral name s = false)
    (hs : s ≠ []) (rest : Text) : closesLiteral name (s ++ '<' :: rest) = false := by
  have hblank : Text.isBlank '<' = false := by decide
  match s,hs with
  | [c],_ => simp [closesLiteral]
  | c::d::u,_ =>
    by_cases hcd : c = '<' ∧ d = '/'
    · obtain ⟨rfl,rfl⟩ := hcd
      simp only [closesLiteral] at h
      simp only [List.cons_append,closesLiteral,(dropWhile_append_cons hblank u rest).1]
      generalize u.dropWhile Text.isBlank = v at h ⊢
      rw [Bool.and_eq_false_iff,decide_eq_false_iff_not,decide_eq_false_iff_not] at h ⊢
      by_cases hlength : name.length ≤ v.length
      · rw [List.take_append_of_le_length hlength,List.drop_append_of_le_length hlength,
          (dropWhile_append_cons hblank _ rest).1]
        refine h.imp id fun hhead => ?_
        cases hw : (v.drop name.length).dropWhile Text.isBlank with
        | nil => simp
        | cons x w => simpa [hw] using hhead
      · left
        intro heq
        have hmem : '<' ∈ (v ++ '<' :: rest).take name.length := by
          rw [List.take_append]
          obtain ⟨k,hk⟩ : ∃ k, name.length - v.length = k + 1 := ⟨name.length - v.length - 1,by omega⟩
          simp [hk]
        have hfold : Text.foldChar '<' = '<' := by decide
        exact hname (heq ▸ List.mem_map.mpr ⟨'<',hmem,hfold⟩)
    · unfold closesLiteral
      split
      · rename_i heq
        simp only [List.cons_append,List.cons.injEq] at heq
        exact absurd ⟨heq.1,heq.2.1⟩ hcd
      · rfl

theorem cutLiteral_append (hname : '<' ∉ name) {t rest : Text} (h : cutLiteral name t = none)
    (hclose : closesLiteral name ('<' :: rest) = true) :
    cutLiteral name (t ++ '<' :: rest) = some (t,'<' :: rest) := by
  induction t with
  | nil => rw [List.nil_append,cutLiteral,if_pos hclose]
  | cons c t ih =>
    rw [cutLiteral] at h
    split at h
    · cases h
    rename_i hnot
    have hmore := closesLiteral_append hname (Bool.eq_false_iff.mpr hnot) (List.cons_ne_nil c t) rest
    rw [List.cons_append] at hmore
    rw [List.cons_append,cutLiteral,if_neg (Bool.eq_false_iff.mp hmore),
      ih (Option.map_eq_none_iff.mp h),Option.map_some]

theorem eq_of_isLiteralName (h : isLiteralName name = true) :
    name = "script".toList ∨ name = "style".toList := by
  unfold isLiteralName at h
  rwa [Bool.or_eq_true,decide_eq_true_eq,decide_eq_true_eq] at h

/-- The end tag of a script or style. -/
theorem readEnd_literal (h : isLiteralName name = true) (r : Reader) (rest : Text)
    (hr : r.literal = some name) :
    readEnd r (name ++ '>' :: rest) =
      .read { r with rest := rest, builder := r.builder.close name, literal := none } := by
  have hgt : '>' ∉ name := by rcases eq_of_isLiteralName h with rfl | rfl <;> decide
  have hplain : plainEnd? (name ++ '>' :: rest) = some (name,rest) := by
    rcases eq_of_isLiteralName h with rfl | rfl <;> rfl
  have hlower : Text.lower name = name := by
    rcases eq_of_isLiteralName h with rfl | rfl <;> decide
  unfold readEnd
  simp [Text.cutAt_append hgt,hplain,hlower,hr]

/-- A script or style with its content. -/
theorem acts_literal {quote : Text → Text} {attrs : Dictionary Text} {t : Text}
    (h : isLiteralName name = true) (hattrs : Attributable quote attrs)
    (ht : cutLiteral name t = none) :
    Acts ('<' :: (name ++ (attributesText quote attrs ++ '>' :: (t ++ '<' :: '/' :: (name ++ ['>'])))))
      (fun b => ((b.openTag name (readAttributes attrs)).put t).close name) := by
  have hname : IsElementName name := by
    rcases eq_of_isLiteralName h with rfl | rfl
    · exact ⟨⟨'s',"cript".toList,rfl,by decide⟩,by decide,by decide⟩
    · exact ⟨⟨'s',"tyle".toList,rfl,by decide⟩,by decide,by decide⟩
  have hlt : '<' ∉ name := by rcases eq_of_isLiteralName h with rfl | rfl <;> decide
  intro rest b
  have hopen := reaches_openTag hname hattrs (t ++ '<' :: '/' :: (name ++ '>' :: rest)) b
  rw [if_pos h] at hopen
  have hcloses : closesLiteral name ('<' :: '/' :: (name ++ '>' :: rest)) = true := by
    rcases eq_of_isLiteralName h with rfl | rfl <;> rfl
  have hcut := cutLiteral_append hlt ht hcloses
  have hslash : isLetter '/' = false := by decide
  have hstep : step false ⟨t ++ '<' :: '/' :: (name ++ '>' :: rest),
      b.openTag name (readAttributes attrs),some name⟩ =
        .more ⟨rest,((b.openTag name (readAttributes attrs)).put t).close name,none⟩ := by
    have hangle : ∀ b' : Builder, readAngle ⟨'<' :: '/' :: (name ++ '>' :: rest),b',some name⟩ =
        some (.read ⟨rest,b'.close name,none⟩) := by
      intro b'
      simp only [readAngle,hslash,Bool.false_eq_true,if_false,if_true]
      rw [readEnd_literal h _ rest rfl]
    unfold step
    simp only [plainPart,hcut,List.isEmpty_cons,Bool.false_eq_true,if_false]
    have hhead : ('<' :: '/' :: (name ++ '>' :: rest)).head? ≠ some '&' := by simp
    rw [if_neg hhead,hangle]
    rfl
  have happ : '<' :: (name ++ (attributesText quote attrs ++
      '>' :: (t ++ '<' :: '/' :: (name ++ ['>'])))) ++ rest =
      '<' :: (name ++ (attributesText quote attrs ++
        '>' :: (t ++ '<' :: '/' :: (name ++ '>' :: rest)))) := by simp
  rw [happ]
  exact hopen.trans (reaches_of_step hstep (by simp; omega))

end Literal
end Longform.Html
