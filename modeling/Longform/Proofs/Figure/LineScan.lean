import Longform.Figure
import Mathlib.Data.List.Basic

/-! Captioned images in lists of lines. Two scans, one for images with alternative text and one for
those without, are one scan from the first line to the last when no line stands in the way of the
image below it. -/
namespace Longform
namespace Figure

open Text

/-- A line of source, and whether it belongs to a fence. -/
abbrev Line := Text × Bool

/-! Scans. -/

/-- Goes through lines once: two neighbours that `pick` takes are replaced together, all other lines
stay. -/
def scanPairs (pick : Line → Line → Option (List Line)) : List Line → List Line
  | [] => []
  | [x] => [x]
  | x::y::r => match pick x y with
    | some zs => zs ++ scanPairs pick r
    | none => x::scanPairs pick (y::r)

/-- The target of a link line outside fences, and what follows the link, if that has a form. -/
def linkLine? (form : Text → Bool) (x : Line) : Option (Text × Text) :=
  if x.2 then none else (target? x.1).filter fun u => form u.2

/-- A line that can be a caption: one outside fences that is not empty. -/
def isCaption (y : Line) : Bool := !y.2 && !y.1.isEmpty

/-- The figure of a target. What follows the link is the alternative text; if there is nothing, the
caption is. -/
def figureOf (u : Text × Text) (caption : Text) : Line :=
  (markup u.1 (if u.2.isEmpty then caption else u.2) caption,false)

/-- An image line and the caption below it as a figure. -/
def figure? (form : Text → Bool) (x y : Line) : Option (List Line) :=
  match linkLine? form x with
  | some u => if isCaption y && isImageTarget u.1 then some [figureOf u y.1] else none
  | none => none

/-- The same, where a link to something else is passed over together with the line below it. -/
def pass? (form : Text → Bool) (x y : Line) : Option (List Line) :=
  match linkLine? form x with
  | some u =>
    if isCaption y then some (if isImageTarget u.1 then [figureOf u y.1] else [x,y]) else none
  | none => none

/-- Behind the link stands an alternative text: a gap and something more. -/
def isWide (r : Text) : Bool := r.head?.any isGap && 2 ≤ r.length

def isImageForm (r : Text) : Bool := r.isEmpty || isWide r

/-- The lines of a text with every captioned image as a figure, in one scan. -/
def scanFigures (xs : List Line) : List Line := scanPairs (figure? isImageForm) xs

/-- The source with every captioned image outside fences written as a figure, in one scan. -/
def scanText (t : Text) : Text := joinLines ((scanFigures (Fence.scan (lines t))).map (·.1))

/-- Two scans, the first for images with alternative text and the second for those without. -/
def scanTwice (xs : List Line) : List Line :=
  scanPairs (pass? List.isEmpty) (scanPairs (pass? isWide) xs)

section Pairs

variable {pick : Line → Line → Option (List Line)}

theorem scanPairs_cons_of_none {x : Line} {xs : List Line} (h : ∀ y ∈ xs.head?, pick x y = none) :
    scanPairs pick (x::xs) = x::scanPairs pick xs := by
  cases xs with
  | nil => rfl
  | cons y r => rw [scanPairs,h y rfl]

theorem scanPairs_cons_of_some {x y : Line} {zs : List Line} (h : pick x y = some zs) (r : List Line) :
    scanPairs pick (x::y::r) = zs ++ scanPairs pick r := by
  rw [scanPairs,h]

/-- Lines that are taken neither with the line above nor with the one below part a scan. -/
theorem scanPairs_append_cons {l : Line} (habove : ∀ x, pick x l = none) (hbelow : ∀ y, pick l y = none)
    (xs ys : List Line) :
    scanPairs pick (xs ++ l::ys) = scanPairs pick xs ++ l::scanPairs pick ys := by
  induction xs using scanPairs.induct pick with
  | case1 => exact scanPairs_cons_of_none fun y _ => hbelow y
  | case2 x =>
    have hnone : ∀ y ∈ (l::ys).head?, pick x y = none := by
      rintro y ⟨⟩
      exact habove x
    rw [List.singleton_append,scanPairs_cons_of_none hnone,scanPairs_cons_of_none fun y _ => hbelow y]
    rfl
  | case3 x y r zs h ih => simp only [List.cons_append,scanPairs,h,ih,List.append_assoc]
  | case4 x y r h ih =>
    rw [List.cons_append,List.cons_append,scanPairs,h,scanPairs,h]
    exact congrArg (x::·) ih

theorem scanPairs_ne_nil {xs : List Line} (hpick : ∀ x y, pick x y ≠ some []) (h : xs ≠ []) :
    scanPairs pick xs ≠ [] := by
  induction xs using scanPairs.induct pick with
  | case1 => exact h
  | case2 x => exact h
  | case3 x y r zs hzs ih =>
    rw [scanPairs_cons_of_some hzs]
    exact fun hnil => hpick x y (hzs.trans (congrArg some (List.append_eq_nil_iff.mp hnil).1))
  | case4 x y r hnone ih =>
    rw [scanPairs,hnone]
    exact List.cons_ne_nil _ _

/-- What two lines are replaced by has what all lines have. -/
theorem forall_mem_scanPairs {P : Line → Prop} {xs : List Line}
    (hpick : ∀ x y zs, P x → P y → pick x y = some zs → ∀ z ∈ zs, P z) (h : ∀ x ∈ xs, P x) :
    ∀ z ∈ scanPairs pick xs, P z := by
  induction xs using scanPairs.induct pick with
  | case1 => exact h
  | case2 x => exact h
  | case3 x y r zs hzs ih =>
    obtain ⟨hx,hy,hr⟩ : P x ∧ P y ∧ ∀ z ∈ r, P z := by simpa using h
    rw [scanPairs_cons_of_some hzs]
    intro z hz
    rcases List.mem_append.mp hz with hz | hz
    · exact hpick x y zs hx hy hzs z hz
    · exact ih hr z hz
  | case4 x y r hnone ih =>
    rw [List.forall_mem_cons] at h
    rw [scanPairs,hnone]
    exact List.forall_mem_cons.mpr ⟨h.1,ih h.2⟩

end Pairs

variable {form : Text → Bool} {u : Text × Text} {x y : Line} {zs : List Line}

theorem linkLine?_eq_some_iff :
    linkLine? form x = some u ↔ x.2 = false ∧ target? x.1 = some u ∧ form u.2 = true := by
  unfold linkLine?
  cases x.2 <;> simp

theorem figure?_eq_some_iff : figure? form x y = some zs ↔ ∃ u, linkLine? form x = some u ∧
    isCaption y = true ∧ isImageTarget u.1 = true ∧ zs = [figureOf u y.1] := by
  constructor
  · intro h
    cases hu : linkLine? form x with
    | none => simp [figure?,hu] at h
    | some u =>
      simp only [figure?,hu,Option.ite_none_right_eq_some,Bool.and_eq_true,Option.some.injEq] at h
      exact ⟨u,rfl,h.1.1,h.1.2,h.2.symm⟩
  · rintro ⟨u,hu,hcaption,himage,rfl⟩
    simp [figure?,hu,hcaption,himage]

/-- A figure is looked for only where a line can be its caption. -/
theorem figure?_eq_none_of_isCaption {y' : Line} (hy : isCaption y' = true → isCaption y = true)
    (h : figure? form x y = none) : figure? form x y' = none := by
  rw [Option.eq_none_iff_forall_ne_some] at h ⊢
  intro zs hzs
  obtain ⟨u,hu,hcaption,himage,-⟩ := figure?_eq_some_iff.mp hzs
  exact h _ (figure?_eq_some_iff.mpr ⟨u,hu,hy hcaption,himage,rfl⟩)

theorem pass?_eq_none_iff : pass? form x y = none ↔ linkLine? form x = none ∨ isCaption y = false := by
  unfold pass?
  cases linkLine? form x <;> simp

/-- What is not taken on the way past other links is no figure. -/
theorem figure?_eq_none_of_pass? (h : pass? form x y = none) : figure? form x y = none := by
  rcases pass?_eq_none_iff.mp h with hlink | hcaption
  · simp [figure?,hlink]
  · rw [Option.eq_none_iff_forall_ne_some]
    intro zs hzs
    obtain ⟨u,-,hcaption',-⟩ := figure?_eq_some_iff.mp hzs
    exact absurd (hcaption'.symm.trans hcaption) (by decide)

theorem pass?_eq_some_iff : pass? form x y = some zs ↔ ∃ u, linkLine? form x = some u ∧
    isCaption y = true ∧ zs = if isImageTarget u.1 then [figureOf u y.1] else [x,y] := by
  constructor
  · intro h
    cases hu : linkLine? form x with
    | none => simp [pass?,hu] at h
    | some u =>
      simp only [pass?,hu,Option.ite_none_right_eq_some,Option.some.injEq] at h
      exact ⟨u,rfl,h.1,h.2.symm⟩
  · rintro ⟨u,hu,hcaption,rfl⟩
    simp only [pass?,hu,hcaption,if_true]

/-- What is taken is a figure, or it is passed over. -/
theorem pass?_eq_some (h : pass? form x y = some zs) : figure? form x y = some zs ∨
    zs = [x,y] ∧ figure? form x y = none ∧
      (linkLine? form x).any (fun u => !isImageTarget u.1) = true := by
  obtain ⟨u,hu,hcaption,rfl⟩ := pass?_eq_some_iff.mp h
  cases himage : isImageTarget u.1 with
  | true => exact .inl (figure?_eq_some_iff.mpr ⟨u,hu,hcaption,himage,rfl⟩)
  | false => exact .inr ⟨rfl,by simp [figure?,hu,himage],by simp [hu,himage]⟩

theorem isCaption_of_linkLine? (h : linkLine? form x = some u) : isCaption x = true := by
  obtain ⟨hfenced,htarget,-⟩ := linkLine?_eq_some_iff.mp h
  have hne : x.1 ≠ [] := by
    intro hnil
    rw [hnil] at htarget
    cases htarget
  simp [isCaption,hfenced,hne]

theorem pass?_fenced (form : Text → Bool) (l : Text) :
    (∀ x, pass? form x (l,true) = none) ∧ ∀ y, pass? form (l,true) y = none :=
  ⟨fun _ => pass?_eq_none_iff.mpr (.inr rfl),fun _ => pass?_eq_none_iff.mpr (.inl rfl)⟩

theorem scanTwice_append_fenced (l : Text) (xs ys : List Line) :
    scanTwice (xs ++ (l,true)::ys) = scanTwice xs ++ (l,true)::scanTwice ys := by
  have hfirst := pass?_fenced isWide l
  have hsecond := pass?_fenced List.isEmpty l
  rw [scanTwice,scanPairs_append_cons hfirst.1 hfirst.2,
    scanPairs_append_cons hsecond.1 hsecond.2]
  rfl

theorem scanTwice_ne_nil {xs : List Line} (h : xs ≠ []) : scanTwice xs ≠ [] := by
  have hpick : ∀ form x y, pass? form x y ≠ some [] := by
    intro form x y hnil
    obtain ⟨u,-,-,hzs⟩ := pass?_eq_some_iff.mp hnil
    split at hzs <;> cases hzs
  exact scanPairs_ne_nil (hpick _) (scanPairs_ne_nil (hpick _) h)

/-! Lines in the way. -/

/-- Every three neighbours satisfy `p`. -/
def eachThree (p : Line → Line → Line → Bool) : List Line → Bool
  | x::y::z::r => p x y z && eachThree p (y::z::r)
  | _ => true

/-- A link line of a form that is no image. -/
def isPassedOver (form : Text → Bool) (x : Line) : Bool :=
  (linkLine? form x).any fun u => !isImageTarget u.1

/-- Three lines of which the first two are passed over, though the second begins a figure. -/
def hides (form : Text → Bool) (x y z : Line) : Bool :=
  isPassedOver form x && (figure? form y z).isSome

/-- Three lines of which the last two become a figure, though the first is an image and the second
its caption. -/
def robs (x y z : Line) : Bool :=
  (linkLine? List.isEmpty x).any (fun u => isImageTarget u.1) && (figure? isWide y z).isSome

/-- No line stands in the way of the image below it. -/
def isUnmixed (xs : List Line) : Bool :=
  eachThree (fun x y z => !hides isWide x y z && !hides List.isEmpty x y z && !robs x y z) xs

section Three

variable {p q : Line → Line → Line → Bool} {xs : List Line}

theorem eachThree_tail (h : eachThree p (x::xs) = true) : eachThree p xs = true := by
  rcases xs with _ | ⟨y,_ | ⟨z,r⟩⟩
  · rfl
  · rfl
  · rw [eachThree,Bool.and_eq_true] at h
    exact h.2

theorem eachThree_cons (hfirst : ∀ y z r, xs = y::z::r → p x y z = true)
    (h : eachThree p xs = true) : eachThree p (x::xs) = true := by
  rcases xs with _ | ⟨y,_ | ⟨z,r⟩⟩
  · rfl
  · rfl
  · rw [eachThree,hfirst y z r rfl,h]
    rfl

theorem eachThree_head {z : Line} {r : List Line} (h : eachThree p (x::y::z::r) = true) :
    p x y z = true := by
  rw [eachThree,Bool.and_eq_true] at h
  exact h.1

theorem eachThree_mono (hpq : ∀ x y z, p x y z = true → q x y z = true)
    (h : eachThree p xs = true) : eachThree q xs = true := by
  induction xs with
  | nil => rfl
  | cons x xs ih =>
    refine eachThree_cons ?_ (ih (eachThree_tail h))
    rintro y z r rfl
    exact hpq x y z (eachThree_head h)

end Three

/-- When no figure is hidden, links to something else may as well not be looked at. -/
theorem scanPairs_pass? {xs : List Line}
    (h : eachThree (fun x y z => !hides form x y z) xs = true) :
    scanPairs (pass? form) xs = scanPairs (figure? form) xs := by
  induction xs using scanPairs.induct (pass? form) with
  | case1 => rfl
  | case2 x => rfl
  | case3 x y r zs hpass ih =>
    have hr := ih (eachThree_tail (eachThree_tail h))
    rw [scanPairs_cons_of_some hpass,hr]
    rcases pass?_eq_some hpass with hfigure | ⟨rfl,hfigure,hover⟩
    · rw [scanPairs_cons_of_some hfigure]
    · have hbelow : ∀ z ∈ r.head?, figure? form y z = none := by
        intro z hz
        obtain ⟨r',rfl⟩ := List.head?_eq_some_iff.mp hz
        have hthree := eachThree_head h
        simpa [hides,isPassedOver,hover] using hthree
      rw [scanPairs,hfigure,scanPairs_cons_of_none hbelow]
      rfl
  | case4 x y r hpass ih =>
    rw [scanPairs,hpass,scanPairs,figure?_eq_none_of_pass? hpass]
    exact congrArg (x::·) (ih (eachThree_tail h))

/-- A scan begins with the first line, or with a figure of it and its caption. -/
theorem scanPairs_figure?_cons (form : Text → Bool) (x : Line) (r : List Line) :
    (scanPairs (figure? form) (x::r) = x::scanPairs (figure? form) r ∧
      ∀ y ∈ r.head?, figure? form x y = none) ∨
    ∃ u c s, linkLine? form x = some u ∧ scanPairs (figure? form) (x::r) = figureOf u c::s := by
  cases r with
  | nil => exact .inl ⟨rfl,fun y hy => nomatch hy⟩
  | cons y r =>
    cases h : figure? form x y with
    | none =>
      have hnone : ∀ z ∈ (y::r).head?, figure? form x z = none := by
        rintro z ⟨⟩
        exact h
      exact .inl ⟨scanPairs_cons_of_none hnone,hnone⟩
    | some zs =>
      obtain ⟨u,hu,-,-,rfl⟩ := figure?_eq_some_iff.mp h
      exact .inr ⟨u,y.1,_,hu,scanPairs_cons_of_some h r⟩

/-- The first line of a scan can be a caption only if it could before. -/
theorem isCaption_head_scanPairs {form : Text → Bool} {x z : Line} {r s : List Line}
    (h : scanPairs (figure? form) (x::r) = z::s) (hz : isCaption z = true) : isCaption x = true := by
  rcases scanPairs_figure?_cons form x r with ⟨heq,-⟩ | ⟨u,c,s',hu,-⟩
  · cases heq.symm.trans h
    exact hz
  · exact isCaption_of_linkLine? hu

/-- Figures with alternative text do not hide those without. -/
theorem eachThree_scanPairs {xs : List Line}
    (h : eachThree (fun x y z => !hides List.isEmpty x y z) xs = true) :
    eachThree (fun x y z => !hides List.isEmpty x y z) (scanPairs (figure? isWide) xs) = true := by
  have hwritten : ∀ u c y z, hides List.isEmpty (figureOf u c) y z = false := fun _ _ _ _ => rfl
  have hfirst : ∀ x u c z, hides List.isEmpty x (figureOf u c) z = false := by
    intro x u c z
    have hnone : figure? List.isEmpty (figureOf u c) z = none := rfl
    simp [hides,hnone]
  induction xs using scanPairs.induct (figure? isWide) with
  | case1 => rfl
  | case2 x => rfl
  | case3 x y r zs hfigure ih =>
    obtain ⟨u,-,-,-,rfl⟩ := figure?_eq_some_iff.mp hfigure
    rw [scanPairs_cons_of_some hfigure]
    refine eachThree_cons ?_ (ih (eachThree_tail (eachThree_tail h)))
    intro y' z' r' _
    rw [hwritten]
    rfl
  | case4 x y r hfigure ih =>
    have htail := ih (eachThree_tail h)
    rw [scanPairs,hfigure]
    refine eachThree_cons ?_ htail
    intro y' z' r' heq
    rcases scanPairs_figure?_cons isWide y r with ⟨hy,-⟩ | ⟨u,c,s,-,hy⟩
    · obtain ⟨rfl,hr⟩ := List.cons.inj (hy.symm.trans heq)
      cases r with
      | nil => exact nomatch hr
      | cons z r =>
        have hthree := eachThree_head h
        simp only [hides,Bool.not_eq_true',Bool.and_eq_false_iff,Option.isSome_eq_false_iff,
          Option.isNone_iff_eq_none] at hthree ⊢
        exact hthree.imp_right (figure?_eq_none_of_isCaption (isCaption_head_scanPairs hr))
    · obtain ⟨rfl,-⟩ := List.cons.inj (hy.symm.trans heq)
      rw [hfirst]
      rfl

theorem figure?_eq_none_mono {form' : Text → Bool} (hform : ∀ r, form r = true → form' r = true)
    (h : figure? form' x y = none) : figure? form x y = none := by
  rw [Option.eq_none_iff_forall_ne_some] at h ⊢
  intro zs hzs
  obtain ⟨u,hu,hrest⟩ := figure?_eq_some_iff.mp hzs
  obtain ⟨hfenced,htarget,hr⟩ := linkLine?_eq_some_iff.mp hu
  exact h zs (figure?_eq_some_iff.mpr
    ⟨u,linkLine?_eq_some_iff.mpr ⟨hfenced,htarget,hform _ hr⟩,hrest⟩)

theorem figure?_isImageForm (h : figure? isImageForm x y = some zs) :
    figure? isWide x y = some zs ∨ figure? List.isEmpty x y = some zs ∧ figure? isWide x y = none ∧
      (linkLine? List.isEmpty x).any (fun u => isImageTarget u.1) = true := by
  obtain ⟨u,hu,hcaption,himage,hzs⟩ := figure?_eq_some_iff.mp h
  obtain ⟨hfenced,htarget,hr⟩ := linkLine?_eq_some_iff.mp hu
  by_cases hwide : isWide u.2 = true
  · have hu' := linkLine?_eq_some_iff.mpr ⟨hfenced,htarget,hwide⟩
    exact .inl (figure?_eq_some_iff.mpr ⟨u,hu',hcaption,himage,hzs⟩)
  · have hempty : u.2.isEmpty = true := by simpa [isImageForm,hwide] using hr
    have hu' : linkLine? List.isEmpty x = some u := linkLine?_eq_some_iff.mpr ⟨hfenced,htarget,hempty⟩
    refine .inr ⟨figure?_eq_some_iff.mpr ⟨u,hu',hcaption,himage,hzs⟩,?_,?_⟩
    · have hnone : linkLine? isWide x = none := by simp [linkLine?,hfenced,htarget,Option.filter,hwide]
      simp [figure?,hnone]
    · simp [hu',himage]

/-- Two scans for figures are one when no figure takes a caption away from the image above it. -/
theorem scanPairs_scanPairs_figure? {xs : List Line}
    (h : eachThree (fun x y z => !robs x y z) xs = true) :
    scanPairs (figure? List.isEmpty) (scanPairs (figure? isWide) xs) = scanFigures xs := by
  unfold scanFigures
  induction xs using scanPairs.induct (figure? isImageForm) with
  | case1 => rfl
  | case2 x => rfl
  | case3 x y r zs hfigure ih =>
    have hr := ih (eachThree_tail (eachThree_tail h))
    rw [scanPairs_cons_of_some hfigure,← hr]
    rcases figure?_isImageForm hfigure with hwide | ⟨hbare,hwide,himage⟩
    · rw [scanPairs_cons_of_some hwide]
      obtain ⟨u,-,-,-,rfl⟩ := figure?_eq_some_iff.mp hwide
      exact scanPairs_cons_of_none fun _ _ => rfl
    · have hbelow : ∀ z ∈ r.head?, figure? isWide y z = none := by
        intro z hz
        obtain ⟨r',rfl⟩ := List.head?_eq_some_iff.mp hz
        have hthree := eachThree_head h
        simpa [robs,himage] using hthree
      rw [scanPairs,hwide]
      simp only
      rw [scanPairs_cons_of_none hbelow,scanPairs_cons_of_some hbare]
  | case4 x y r hfigure ih =>
    have hwide : figure? isWide x y = none :=
      figure?_eq_none_mono (fun r hr => by simp [isImageForm,hr]) hfigure
    have hbare : figure? List.isEmpty x y = none :=
      figure?_eq_none_mono (fun r hr => by simp [isImageForm,hr]) hfigure
    rw [scanPairs,hwide,scanPairs.eq_3,hfigure]
    simp only
    rw [← ih (eachThree_tail h)]
    apply scanPairs_cons_of_none
    intro z hz
    obtain ⟨s,hs⟩ := List.head?_eq_some_iff.mp hz
    exact figure?_eq_none_of_isCaption (isCaption_head_scanPairs hs) hbare

/-- When no line stands in the way of the image below it, one scan does what two do. -/
theorem scanTwice_eq_scanFigures {xs : List Line} (h : isUnmixed xs = true) :
    scanTwice xs = scanFigures xs := by
  have hwide : eachThree (fun x y z => !hides isWide x y z) xs = true :=
    eachThree_mono (fun x y z hall => by simp_all) h
  have hbare : eachThree (fun x y z => !hides List.isEmpty x y z) xs = true :=
    eachThree_mono (fun x y z hall => by simp_all) h
  have hrobs : eachThree (fun x y z => !robs x y z) xs = true :=
    eachThree_mono (fun x y z hall => by simp_all) h
  calc
    scanTwice xs = scanPairs (pass? List.isEmpty) (scanPairs (figure? isWide) xs) :=
      congrArg _ (scanPairs_pass? hwide)
    _ = scanPairs (figure? List.isEmpty) (scanPairs (figure? isWide) xs) :=
      scanPairs_pass? (eachThree_scanPairs hbare)
    _ = scanFigures xs := scanPairs_scanPairs_figure? hrobs

end Figure
end Longform
