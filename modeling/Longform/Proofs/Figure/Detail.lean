import Longform.Proofs.Figure.LineReading
import Longform.Proofs.Html.StartTag
import Longform.Proofs.Wikilink

/-! Image links with a detail, read twice: with the line below as a figure, and on their own as an image. A
figure takes the target with the bar and the detail for its source, an image the target alone. So the two
never have the same source, and the detail decides what a figure is made of. -/
namespace Longform
namespace Figure

open Text

/-- A target and a detail behind it, on one line. -/
structure IsDetailed (target detail : Text) : Prop where
  target_ne : target ≠ []
  target_trimmed : trim target = target
  target_inside : ∀ c ∈ target, c ≠ '|' ∧ c ≠ ']' ∧ c ≠ '\n'
  detail_ne : detail ≠ []
  detail_inside : ∀ c ∈ detail, c ≠ ']' ∧ c ≠ '\n'

instance (target detail : Text) : Decidable (IsDetailed target detail) :=
  decidable_of_iff (target ≠ [] ∧ trim target = target ∧
      (target.all fun c => decide (c ≠ '|' ∧ c ≠ ']' ∧ c ≠ '\n')) = true ∧
      detail ≠ [] ∧ (detail.all fun c => decide (c ≠ ']' ∧ c ≠ '\n')) = true) (by
    simp only [List.all_eq_true,decide_eq_true_eq]
    exact ⟨fun h => ⟨h.1,h.2.1,h.2.2.1,h.2.2.2.1,h.2.2.2.2⟩,
      fun h => ⟨h.target_ne,h.target_trimmed,h.target_inside,h.detail_ne,h.detail_inside⟩⟩)

/-- The target and its detail, as a figure reads them. -/
def whole (target detail : Text) : Text := target ++ '|' :: detail

/-- The image link of a target and a detail. -/
def linkLine (target detail : Text) : Text := "![[".toList ++ (whole target detail ++ [']',']'])

/-- The source of the figure that a text begins with, if it can be read. -/
def source? (t : Text) : Option Text :=
  ((after? "<figure><img src=\"".toList t).bind (cutAt '"')).bind fun x => (Html.unescape x.1).toOption

/-- The source of tokens that are one image. -/
def imageSource? : List Token → Option Text
  | [t] =>
    if t.kind = "image" then
      match Dictionary.find? "src".toList t.attrs with
      | some (.text src) => some src
      | _ => none
    else none
  | _ => none

/-- What makes a target an image besides its ending. -/
def looksElsewhere (t : Text) : Bool :=
  contains "placehold".toList t || startsWith "http".toList t || startsWith ['/'] t

/-! What looks like an image. -/

section Image

variable {t a : Text}

theorem isImageTarget_eq (t : Text) : isImageTarget t = (hasImageSuffix t || looksElsewhere t) := by
  simp only [isImageTarget,looksElsewhere,Bool.or_assoc]

theorem hasImageSuffix_of_line (h : '\n' ∉ t) : hasImageSuffix t =
    suffixes.any fun s => s.reverse.isPrefixOf (t.reverse.map foldChar) := by
  have hlast : t.getLast? ≠ some '\n' := fun hlast => h (List.mem_of_getLast? hlast)
  simp [hasImageSuffix,hlast]

/-- The ending behind a bar is the ending of the whole. -/
theorem hasImageSuffix_whole (ht : '\n' ∉ t) (ha : '\n' ∉ a) :
    hasImageSuffix (whole t a) = hasImageSuffix a := by
  have hwhole : '\n' ∉ whole t a := by simp [whole,ht,ha]
  have hbar : (suffixes.all fun s => decide ('|' ∉ s.reverse)) = true := by decide
  have hreverse : (whole t a).reverse.map foldChar =
      a.reverse.map foldChar ++ '|' :: t.reverse.map foldChar := by
    have hfold : foldChar '|' = '|' := rfl
    simp [whole,hfold]
  rw [hasImageSuffix_of_line hwhole,hasImageSuffix_of_line ha,hreverse,Bool.eq_iff_iff,
    List.any_eq_true,List.any_eq_true]
  refine exists_congr fun s => and_congr_right fun hs => ?_
  have hs' : '|' ∉ s.reverse := of_decide_eq_true (List.all_eq_true.mp hbar s hs)
  exact Bool.eq_iff_iff.mp (startsWith_append_cons hs' _ _)

theorem isImageTarget_whole (h : IsDetailed t a) : isImageTarget (whole t a) =
    (looksElsewhere t || (hasImageSuffix a || contains "placehold".toList a)) := by
  have hsuffix := hasImageSuffix_whole (fun hm => (h.target_inside _ hm).2.2 rfl)
    fun hm => (h.detail_inside _ hm).2 rfl
  have hcontains : contains "placehold".toList (whole t a) =
      (contains "placehold".toList t || contains "placehold".toList a) :=
    contains_append_cons (by decide) (by decide) t a
  have hhttp : startsWith "http".toList (whole t a) = startsWith "http".toList t :=
    startsWith_append_cons (by decide) t a
  have hslash : startsWith ['/'] (whole t a) = startsWith ['/'] t :=
    startsWith_append_cons (by decide) t a
  rw [isImageTarget,hsuffix,hcontains,hhttp,hslash,looksElsewhere]
  ac_rfl

end Image

/-! Reading the figure. -/

section Figure

variable {t a c : Text}

theorem source?_markup (src alt caption : Text) : source? (markup src alt caption) = some (trim src) := by
  have hmarkup := markup_eq ⟨src,alt,caption,[]⟩
  obtain ⟨r,hr⟩ : ∃ r, Reading.afterSource ⟨src,alt,caption,[]⟩ = '"' :: r := ⟨_,rfl⟩
  rw [hr] at hmarkup
  rw [source?,hmarkup,after?_append,Option.bind_some,
    cutAt_append (Html.quote_not_mem_escapeAttribute (trim src)),Option.bind_some]
  exact congrArg Except.toOption (Html.unescape_of_spells (Html.spells_escapeAttribute (trim src)))

theorem source?_linkLine (t a r : Text) : source? (linkLine t a ++ r) = none := rfl

theorem IsDetailed.bracketed (h : IsDetailed t a) : Bracketed (linkLine t a) where
  line := by
    have ht : '\n' ∉ t := fun hm => (h.target_inside _ hm).2.2 rfl
    have ha : '\n' ∉ a := fun hm => (h.detail_inside _ hm).2 rfl
    simp [linkLine,whole,ht,ha]
  closed _ := by simp [linkLine]

theorem IsDetailed.target?_linkLine (h : IsDetailed t a) :
    target? (linkLine t a) = some (whole t a,[]) := by
  have ht : ']' ∉ whole t a := by
    have ht : ']' ∉ t := fun hm => (h.target_inside _ hm).2.1 rfl
    have ha : ']' ∉ a := fun hm => (h.detail_inside _ hm).1 rfl
    simp [whole,ht,ha]
  have hne : (whole t a).isEmpty = false := by simp [whole]
  simp only [target?,linkLine,after?_append,cutAt_append ht,hne]
  rfl

/-- A line alone is nothing to read a figure from. -/
theorem expandEach_line {read? : Text → Option Reading}
    (hbegins : ∀ t x, read? t = some x → ∃ behind, x.BeginsWith t behind) (hc : '\n' ∉ c) :
    expandEach read? c = c := by
  have hnone : read? c = none := by
    rw [Option.eq_none_iff_forall_ne_some]
    intro x hx
    obtain ⟨behind,hbegins⟩ := hbegins c x hx
    exact hc (by simp [hbegins.source])
  have happ : expandOn read? (c ++ []) = c ++ expandOn read? [] := expandOn_append hc []
  rw [List.append_nil] at happ
  rw [expandEach_of_none hnone,happ]
  exact List.append_nil c

theorem expandSegment_line (hc : '\n' ∉ c) : expandSegment c = c := by
  rw [expandSegment,expandEach_line reads_withAlt?.begins hc,expandEach_line reads_withoutAlt?.begins hc]

/-- The line below the link is its caption. -/
theorem expandSegment_linkLine (h : IsDetailed t a) (hne : c ≠ []) (hc : '\n' ∉ c) :
    expandSegment (linkLine t a ++ '\n' :: c) =
      if isImageTarget (whole t a) then markup (whole t a) c c else linkLine t a ++ '\n' :: c := by
  have hbelow : below [c] = '\n' :: c := by simp [below]
  have hlink : linkLine? List.isEmpty (linkLine t a,false) = some (whole t a,[]) :=
    linkLine?_eq_some_iff.mpr ⟨rfl,h.target?_linkLine,rfl⟩
  have hfirst : expandEach withAlt? (linkLine t a ++ '\n' :: c) = linkLine t a ++ '\n' :: c := by
    have hnone : withAlt? (linkLine t a ++ below [c]) = none := by
      rw [withAlt?_append h.bracketed h.target?_linkLine]
      rfl
    rw [hbelow] at hnone
    rw [expandEach_of_none hnone,expandOn_append h.bracketed.line,expandOn_newline,
      expandEach_line reads_withAlt?.begins hc]
  obtain ⟨alt,halt,hread⟩ := reads_withoutAlt?.found _ c [] _ h.bracketed hc hne hlink
  rw [hbelow] at hread
  rw [expandSegment,hfirst,expandEach_of_some reads_withoutAlt?.begins hread,Reading.render]
  have hrest : expandOn withoutAlt? (below []) = [] := rfl
  rw [hrest,List.append_nil,below_nil,List.length_nil,Nat.sub_zero,List.take_length]
  split
  · exact markup_congr halt _ _
  · rfl

theorem trim_whole (h : IsDetailed t a) : trim (whole t a) = t ++ '|' :: trimEnd a := by
  obtain ⟨d,r,rfl⟩ := List.exists_cons_of_ne_nil h.target_ne
  have hstart : trimStart (d::r) = d::r :=
    List.dropWhile_cons_of_neg (by simp [isBlank_of_trim_eq_cons h.target_trimmed])
  rw [whole,trim_append_cons (by decide),hstart]

theorem expand_linkLine (h : IsDetailed t a) (hne : c ≠ []) (hc : '\n' ∉ c) :
    expand (linkLine t a ++ '\n' :: c) =
      if Fence.opener? c = none ∧ isImageTarget (whole t a) = true then markup (whole t a) c c
      else linkLine t a ++ '\n' :: c := by
  have hlines : lines (linkLine t a ++ '\n' :: c) = [linkLine t a,c] := by
    rw [lines_append_newline,lines_of_not_mem h.bracketed.line,lines_of_not_mem hc]
    rfl
  have hopen : Fence.opener? (linkLine t a) = none :=
    Fence.opener?_of_not_mark (c := '!') rfl (by decide)
  have hfirst : Fence.advance .normal (linkLine t a) = .normal :=
    Fence.advance_normal_eq_normal_iff.mpr hopen
  rw [expand,hlines,Fence.scan,Fence.scanFrom,Fence.scanFrom,hfirst]
  rcases hcaption : Fence.opener? c with _ | ⟨mark,length⟩
  · rw [Fence.advance_normal_eq_normal_iff.mpr hcaption]
    have hsegment := expandSegment_linkLine h hne hc
    simpa [Fence.State.isFenced,Fence.scanFrom,expandLines,expandLines.flush,joinLines,join] using hsegment
  · have hfence : Fence.advance .normal c = .inside mark length := by
      simp [Fence.advance,hcaption]
    have hline := expandSegment_line h.bracketed.line
    rw [hfence]
    simp [Fence.State.isFenced,Fence.scanFrom,expandLines,expandLines.flush,joinLines,join,hline]

end Figure

/-! The link on its own, and both together. -/

section Source

variable {t a c : Text}

/-- The link as a wikilink. -/
def IsDetailed.spelled (h : IsDetailed t a) : Wikilink.Spelled where
  bang := true
  target := t
  detail := some a
  target_ne := h.target_ne
  target_inside c hc := ⟨(h.target_inside c hc).1,(h.target_inside c hc).2.1⟩
  detail_ne _ hd := Option.some.inj hd ▸ h.detail_ne
  detail_inside _ hd c hc := (h.detail_inside c (Option.some.inj hd ▸ hc)).1

theorem IsDetailed.text_spelled (h : IsDetailed t a) : h.spelled.text = linkLine t a := by
  simp [Wikilink.Spelled.text,Wikilink.Spelled.inside,Wikilink.detailText,spelled,linkLine,whole]

theorem imageSource?_expand (searchPrefix : Option Text) (h : IsDetailed t a) :
    (Wikilink.expand searchPrefix (linkLine t a)).toOption.bind imageSource? =
      if isImageTarget t then some t else none := by
  have himage : Wikilink.Depicts h.spelled.toWikilink ↔ isImageTarget t = true := and_iff_right rfl
  rw [← h.text_spelled,Wikilink.expand_text]
  rcases h.spelled.tokens_cases searchPrefix with ⟨⟨hlink,-⟩,htokens⟩ | ⟨-,ts,hshown,htokens⟩
  · rw [htokens,if_neg (mt himage.mpr hlink)]
    rfl
  rw [htokens]
  cases hshown with
  | image hdepicts =>
    rw [if_pos (himage.mp hdepicts)]
    rfl
  | link hlink =>
    rw [if_neg (mt himage.mpr hlink)]
    rfl

theorem source?_expand (h : IsDetailed t a) (hne : c ≠ []) (hc : '\n' ∉ c) :
    source? (expand (linkLine t a ++ '\n' :: c)) =
      if Fence.opener? c = none ∧ isImageTarget (whole t a) = true then some (t ++ '|' :: trimEnd a)
      else none := by
  rw [expand_linkLine h hne hc]
  split
  · rw [source?_markup,trim_whole h]
  · exact source?_linkLine t a _

/-- A link with a detail becomes a figure when what it says is an image up to its end, and an image when its
target is one. The two agree where the target is an image whatever it ends with, or its ending and that of the
detail are alike, and they never have one source. -/
theorem sources_of_linkLine (searchPrefix : Option Text) (h : IsDetailed t a) (hne : c ≠ [])
    (hc : '\n' ∉ c) :
    let figure := source? (expand (linkLine t a ++ '\n' :: c))
    let image := (Wikilink.expand searchPrefix (linkLine t a)).toOption.bind imageSource?
    let byDetail := hasImageSuffix a || contains "placehold".toList a
    figure = (if Fence.opener? c = none ∧ (looksElsewhere t || byDetail) = true then
        some (t ++ '|' :: trimEnd a) else none) ∧
      image = (if (looksElsewhere t || hasImageSuffix t) = true then some t else none) ∧
      (Fence.opener? c = none → (figure.isSome = image.isSome ↔
        looksElsewhere t = true ∨ hasImageSuffix t = byDetail)) ∧
      (figure = image ↔ figure = none ∧ image = none) := by
  intro figure image byDetail
  have hfigure : figure = if Fence.opener? c = none ∧ (looksElsewhere t || byDetail) = true then
      some (t ++ '|' :: trimEnd a) else none := by
    rw [← isImageTarget_whole h]
    exact source?_expand h hne hc
  have himage : image = if (looksElsewhere t || hasImageSuffix t) = true then some t else none := by
    rw [Bool.or_comm,← isImageTarget_eq]
    exact imageSource?_expand searchPrefix h
  refine ⟨hfigure,himage,fun hcaption => ?_,fun heq => ?_,fun h => h.1.trans h.2.symm⟩
  · rw [hfigure,himage]
    cases looksElsewhere t <;> cases hasImageSuffix t <;> cases byDetail <;> simp [hcaption]
  · rw [hfigure,himage] at heq
    rw [hfigure,himage]
    split at heq
    · split at heq
      · simp at heq
      · cases heq
    · split at heq
      · cases heq
      · rename_i hf hi
        exact ⟨if_neg hf,if_neg hi⟩

/-- A link to an address, which is an image whatever it ends with. -/
theorem sources_of_linkLine_elsewhere :
    (IsDetailed "/x".toList "y".toList ∧ "c".toList ≠ [] ∧ '\n' ∉ "c".toList) ∧
      source? (expand (linkLine "/x".toList "y".toList ++ '\n' :: "c".toList)) = some "/x|y".toList ∧
      (Wikilink.expand none (linkLine "/x".toList "y".toList)).toOption.bind imageSource? =
        some "/x".toList := by
  have hlink : IsDetailed "/x".toList "y".toList := by decide
  have hcaption : "c".toList ≠ [] ∧ '\n' ∉ "c".toList := by decide
  have h := sources_of_linkLine none hlink hcaption.1 hcaption.2
  exact ⟨⟨hlink,hcaption⟩,h.1,h.2.1⟩

/-- The detail alone can make a figure of what is no image, and keep an image from being one. -/
theorem source?_ne_imageSource? :
    (source? (expand "![[doc|b.png]]\nc".toList) = some "doc|b.png".toList ∧
      (Wikilink.expand none "![[doc|b.png]]".toList).toOption.bind imageSource? = none) ∧
      source? (expand "![[a.png|Alt]]\nc".toList) = none ∧
      (Wikilink.expand none "![[a.png|Alt]]".toList).toOption.bind imageSource? = some "a.png".toList := by
  decide +kernel

end Source
end Figure
end Longform
