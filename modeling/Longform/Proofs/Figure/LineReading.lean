import Longform.Proofs.Fence.Scan
import Longform.Proofs.Figure.LineScan
import Longform.Proofs.Figure.Plain

/-! Captioned images in text. When every link that begins a line is closed on that line, the text is
read line by line: writing figures is two scans over its lines. -/
namespace Longform
namespace Figure

open Text

/-- A line that closes the link it begins with. -/
structure Bracketed (l : Text) : Prop where
  line : '\n' ∉ l
  closed : startsWith "![[".toList l = true → ']' ∈ l

/-- The end of a line is not seen by the reader of links. -/
theorem target?_append {l z : Text} (hl : Bracketed l) (hz : ∀ c ∈ z.head?, c = '\n') :
    target? (l ++ z) = (target? l).map fun u => (u.1,u.2 ++ z) := by
  cases hs : after? "![[".toList l with
  | none =>
    have hnone := after?_append_of_none (by decide) hz hs
    simp only [target?,hs,hnone,Option.map_none]
  | some s =>
    have happ := eq_append_of_after? hs
    have hmem : ']' ∈ s := by
      have hclosed := hl.closed (startsWith_iff.mpr ⟨s,happ⟩)
      simpa [happ] using hclosed
    obtain ⟨u,b,rfl,hu⟩ := List.eq_append_cons_of_mem hmem
    have hz' : after? "![[".toList (l ++ z) = some (u ++ ']' :: (b ++ z)) := by
      rw [happ,after?_eq_some_iff]
      simp
    simp only [target?,hs,hz',cutAt_append hu]
    rcases b with _ | ⟨d,b⟩
    · rcases z with _ | ⟨d,z⟩
      · rfl
      · have hd : d = '\n' := hz d rfl
        subst hd
        rfl
    · by_cases hd : d = ']'
      · subst hd
        cases u <;> rfl
      · simp [hd]

/-! Readers of captioned images. -/

/-- A reader finds the images of a form, with the line below as their caption. -/
structure Reads (read? : Text → Option Reading) (form : Text → Bool) : Prop where
  begins : ∀ t x, read? t = some x → ∃ behind, x.BeginsWith t behind
  found : ∀ l k ks u, Bracketed l → '\n' ∉ k → k ≠ [] → linkLine? form (l,false) = some u →
    ∃ alt, trim alt = trim (if u.2.isEmpty then k else u.2) ∧
      read? (l ++ below (k::ks)) = some ⟨u.1,alt,k,below ks⟩
  missed : ∀ l ks, Bracketed l →
    (linkLine? form (l,false) = none ∨ ∀ k ∈ ks.head?, k = []) → read? (l ++ below ks) = none

theorem lineBelow?_below {k : Text} (hk : '\n' ∉ k) (ks : List Text) :
    lineBelow? (below (k::ks)) = if k.isEmpty then none else some (k,below ks) := by
  have hall : ∀ c ∈ k, decide (c ≠ '\n') = true := fun c hc => by
    simpa using fun he : c = '\n' => hk (he ▸ hc)
  have hstop : ∀ c ∈ (below ks).head?, decide (c ≠ '\n') = false := fun c hc => by
    simpa using head?_below ks c hc
  obtain ⟨hline,hrest⟩ := takeWhile_append_stop hall hstop
  have hbelow : below (k::ks) = '\n' :: (k ++ below ks) := rfl
  rw [hbelow,lineBelow?,line?,hline,hrest]

theorem lineBelow?_of_ne_nil {k : Text} (hk : '\n' ∉ k) (hne : k ≠ []) (ks : List Text) :
    lineBelow? (below (k::ks)) = some (k,below ks) := by
  rw [lineBelow?_below hk,if_neg (by simpa using hne)]

theorem lineBelow?_eq_none {ks : List Text} (h : ∀ k ∈ ks.head?, k = []) :
    lineBelow? (below ks) = none := by
  cases ks with
  | nil => rfl
  | cons k ks =>
    rw [lineBelow?_below] <;> simp [h k rfl]

theorem reads_withoutAlt? : Reads withoutAlt? List.isEmpty where
  begins t x h := ⟨[],beginsWith_of_withoutAlt? h⟩
  found l k ks u hl hk hne hlink := by
    obtain ⟨-,htarget,hempty⟩ := linkLine?_eq_some_iff.mp hlink
    refine ⟨k,by rw [if_pos hempty],?_⟩
    have hbelow := lineBelow?_of_ne_nil hk hne ks
    rw [withoutAlt?,target?_append hl (head?_below (k::ks)),htarget]
    simp [List.isEmpty_iff.mp hempty,hbelow]
  missed l ks hl h := by
    rw [withoutAlt?,target?_append hl (head?_below ks)]
    cases htarget : target? l with
    | none => rfl
    | some u =>
      obtain ⟨u,r⟩ := u
      cases r with
      | nil =>
        have hcaption := h.resolve_left (by simp [linkLine?,htarget])
        simp [lineBelow?_eq_none hcaption]
      | cons c r =>
        have hc : c ≠ '\n' := fun he => hl.line (by simp [eq_of_target? htarget,he])
        simp [lineBelow?,hc]

theorem isBlank_of_isGap {c : Char} (h : isGap c = true) : isBlank c = true := by
  have hc : c = ' ' ∨ c = '\t' := by simpa [isGap] using h
  rcases hc with rfl | rfl <;> decide

/-- The alternative text is a gap and something behind it, or only a gap. -/
theorem isWide_eq (r : Text) : isWide r =
    !((r.takeWhile isGap).isEmpty || ((r.dropWhile isGap).isEmpty && (r.takeWhile isGap).length < 2)) := by
  have hlength := congrArg List.length (List.takeWhile_append_dropWhile (p:=isGap) (l:=r))
  rw [List.length_append] at hlength
  cases r with
  | nil => rfl
  | cons c r =>
    cases hc : isGap c with
    | false => simp [isWide,hc]
    | true =>
      simp only [hc,List.takeWhile_cons_of_pos,List.dropWhile_cons_of_pos,List.length_cons] at hlength ⊢
      rw [Bool.eq_iff_iff]
      simp only [isWide,List.head?_cons,Option.any_some,hc,List.isEmpty_cons,List.length_cons,
        Bool.true_and,Bool.false_or,Bool.not_eq_true',Bool.and_eq_false_iff,decide_eq_true_eq,
        decide_eq_false_iff_not,List.isEmpty_eq_false_iff,← List.length_pos_iff]
      omega

theorem trim_alt (r : Text) : trim (if (r.dropWhile isGap).isEmpty then
      (r.takeWhile isGap).drop ((r.takeWhile isGap).length - 1) else r.dropWhile isGap) = trim r := by
  have hgap : ∀ c ∈ r.takeWhile isGap, isBlank c = true := fun c hc =>
    isBlank_of_isGap (List.all_eq_true.mp List.all_takeWhile c hc)
  have hr : trim r = trim (r.dropWhile isGap) := by
    have htrim := trim_append_append hgap (e:=[]) (by simp) (r.dropWhile isGap)
    rwa [List.append_nil,List.takeWhile_append_dropWhile] at htrim
  split
  · rename_i hnil
    rw [hr,List.isEmpty_iff.mp hnil]
    have hdrop : ∀ c ∈ (r.takeWhile isGap).drop ((r.takeWhile isGap).length - 1), isBlank c = true :=
      fun c hc => hgap c (List.mem_of_mem_drop hc)
    simpa using trim_append_append hdrop (e:=[]) (by simp) []
  · exact hr.symm

theorem withAlt?_append {l u r : Text} (hl : Bracketed l) (htarget : target? l = some (u,r))
    (ks : List Text) : withAlt? (l ++ below ks) =
      if isWide r then (lineBelow? (below ks)).map fun y => ⟨u,
        if (r.dropWhile isGap).isEmpty then (r.takeWhile isGap).drop ((r.takeWhile isGap).length - 1)
        else r.dropWhile isGap,y.1,y.2⟩
      else none := by
  have hline : '\n' ∉ r.dropWhile isGap := fun hm => hl.line (by
    simp [eq_of_target? htarget,(List.dropWhile_suffix isGap).subset hm])
  have hgap : ∀ c ∈ r.takeWhile isGap, isGap c = true := List.all_eq_true.mp List.all_takeWhile
  have hstop : ∀ c ∈ (r.dropWhile isGap ++ below ks).head?, isGap c = false := by
    intro c hc
    cases hb : r.dropWhile isGap with
    | nil =>
      rw [hb,List.nil_append] at hc
      rw [head?_below ks c hc]
      rfl
    | cons d b =>
      have hd := List.head?_dropWhile_not isGap r
      simp_all
  have hall : ∀ c ∈ r.dropWhile isGap, decide (c ≠ '\n') = true := fun c hc => by
    simpa using fun he : c = '\n' => hline (he ▸ hc)
  have hend : ∀ c ∈ (below ks).head?, decide (c ≠ '\n') = false := fun c hc => by
    simpa using head?_below ks c hc
  obtain ⟨hgap',hbody⟩ := takeWhile_append_stop hgap hstop
  obtain ⟨halt,hrest⟩ := takeWhile_append_stop hall hend
  rw [← List.append_assoc,List.takeWhile_append_dropWhile] at hgap' hbody
  simp only [withAlt?,target?_append hl (head?_below ks),htarget,Option.map_some,hgap',hbody,halt,hrest]
  rw [isWide_eq]
  cases (r.takeWhile isGap).isEmpty || ((r.dropWhile isGap).isEmpty && (r.takeWhile isGap).length < 2) with
  | true => rfl
  | false => cases lineBelow? (below ks) <;> rfl

theorem reads_withAlt? : Reads withAlt? isWide where
  begins t x h := beginsWith_of_withAlt? h
  found l k ks u hl hk hne hlink := by
    obtain ⟨-,htarget,hwide⟩ := linkLine?_eq_some_iff.mp hlink
    have hnil : u.2.isEmpty = false := by
      cases hr : u.2 with
      | nil => simp [isWide,hr] at hwide
      | cons c r => rfl
    rw [withAlt?_append hl htarget,if_pos hwide,lineBelow?_of_ne_nil hk hne]
    refine ⟨_,?_,rfl⟩
    rw [trim_alt,hnil]
    rfl
  missed l ks hl h := by
    cases htarget : target? l with
    | none =>
      rw [withAlt?,target?_append hl (head?_below ks),htarget]
      rfl
    | some u =>
      rw [withAlt?_append hl htarget]
      split
      · rename_i hwide
        have hcaption := h.resolve_left (by simp [linkLine?,htarget,Option.filter,hwide])
        rw [lineBelow?_eq_none hcaption]
        rfl
      · rfl

theorem Reading.BeginsWith.rest_lt {x : Reading} {t behind : Text} (h : x.BeginsWith t behind) :
    x.rest.length < t.length := by
  have hlength := congrArg List.length h.source
  simp only [List.length_append,List.length_cons] at hlength
  omega

section Pass

variable {read? : Text → Option Reading}
  (hbegins : ∀ t x, read? t = some x → ∃ behind, x.BeginsWith t behind)

include hbegins in
/-- A pass does not depend on its fuel when there is a unit for every character. -/
theorem expandFrom_fuel {m n : Nat} {b : Bool} {t : Text} (hm : t.length ≤ m) (hn : t.length ≤ n) :
    expandFrom read? m b t = expandFrom read? n b t := by
  induction m generalizing n b t with
  | zero =>
    rw [List.length_eq_zero_iff.mp (Nat.le_zero.mp hm)]
    cases n <;> rfl
  | succ m ih =>
    cases t with
    | nil => cases n <;> rfl
    | cons c r =>
      obtain ⟨n,rfl⟩ : ∃ n', n = n' + 1 := Nat.exists_eq_add_one.mpr (Nat.lt_of_lt_of_le (by simp) hn)
      rw [List.length_cons] at hm hn
      rw [expandFrom,expandFrom]
      split
      · rename_i x hx
        have hread : read? (c::r) = some x := by
          cases b with
          | false => simp at hx
          | true => exact hx
        obtain ⟨behind,hx'⟩ := hbegins _ _ hread
        have hlt := hx'.rest_lt
        rw [List.length_cons] at hlt
        rw [ih (n:=n) (by omega) (by omega)]
      · rw [ih (n:=n) (by omega) (by omega)]

/-- A pass that begins within a line. -/
def expandOn (read? : Text → Option Reading) (t : Text) : Text := expandFrom read? t.length false t

theorem expandOn_newline (t : Text) :
    expandOn read? ('\n' :: t) = '\n' :: expandEach read? t := by
  rw [expandOn,List.length_cons,expandFrom]
  rfl

theorem expandOn_append {l : Text} (hl : '\n' ∉ l) (z : Text) :
    expandOn read? (l ++ z) = l ++ expandOn read? z := by
  induction l with
  | nil => rfl
  | cons c l ih =>
    rw [List.mem_cons,not_or] at hl
    have hc : decide (c = '\n') = false := decide_eq_false (Ne.symm hl.1)
    rw [List.cons_append,expandOn,List.length_cons,expandFrom]
    simp only [Bool.false_eq_true,if_false,hc]
    exact congrArg (c::·) (ih hl.2)

theorem expandEach_of_none {t : Text} (h : read? t = none) : expandEach read? t = expandOn read? t := by
  cases t with
  | nil => rfl
  | cons c r => simp [expandEach,expandOn,expandFrom,h]

include hbegins in
theorem expandEach_of_some {t : Text} {x : Reading} (h : read? t = some x) :
    expandEach read? t = x.render t ++ expandOn read? x.rest := by
  obtain ⟨behind,hx⟩ := hbegins _ _ h
  have hlt := hx.rest_lt
  cases t with
  | nil => exact absurd hlt (by simp)
  | cons c r =>
    rw [List.length_cons] at hlt
    rw [expandEach,List.length_cons,expandFrom]
    simp only [if_true,h]
    rw [expandFrom_fuel hbegins (n:=x.rest.length) (by omega) (by omega)]
    rfl

end Pass

/-! Passes over lines. -/

/-- A line outside fences that closes the link it begins with. -/
def IsOpen (x : Line) : Prop := x.2 = false ∧ Bracketed x.1

theorem markup_congr {alt alt' : Text} (h : trim alt = trim alt') (src caption : Text) :
    markup src alt caption = markup src alt' caption := by
  unfold markup
  rw [h]

/-- A pass over lines is a scan of them. -/
theorem expandOn_below {read? : Text → Option Reading} {form : Text → Bool} (hr : Reads read? form)
    {xs : List Line} (hxs : ∀ x ∈ xs, IsOpen x) : expandOn read? (below (xs.map (·.1))) =
      below ((scanPairs (pass? form) xs).map (·.1)) := by
  have hcopied : ∀ l ks, Bracketed l → read? (l ++ below ks) = none →
      expandOn read? (below (l::ks)) = '\n' :: (l ++ expandOn read? (below ks)) := by
    intro l ks hl hnone
    have hbelow : below (l::ks) = '\n' :: (l ++ below ks) := rfl
    rw [hbelow,expandOn_newline,expandEach_of_none hnone,expandOn_append hl.line]
  induction xs using scanPairs.induct (pass? form) with
  | case1 => rfl
  | case2 x =>
    obtain ⟨-,hx⟩ := hxs x (List.mem_singleton_self x)
    exact hcopied x.1 [] hx (hr.missed x.1 [] hx (.inr (by simp)))
  | case3 x y r zs hzs ih =>
    obtain ⟨⟨hfenced,hx⟩,⟨-,hy⟩,hrest⟩ : IsOpen x ∧ IsOpen y ∧ ∀ z ∈ r, IsOpen z := by simpa using hxs
    obtain ⟨u,hu,hcaption,rfl⟩ := pass?_eq_some_iff.mp hzs
    have hne : y.1 ≠ [] := by
      simp only [isCaption,Bool.and_eq_true] at hcaption
      simpa using hcaption.2
    have hx' : x = (x.1,false) := by rw [← hfenced]
    obtain ⟨alt,halt,hread⟩ := hr.found x.1 y.1 (r.map (·.1)) u hx hy.line hne (hx' ▸ hu)
    rw [scanPairs_cons_of_some hzs,List.map_append,below_append,← ih hrest]
    have hbelow : below ((x::y::r).map (·.1)) = '\n' :: (x.1 ++ below (y.1::r.map (·.1))) := rfl
    rw [hbelow,expandOn_newline,expandEach_of_some hr.begins hread,Reading.render]
    cases himage : isImageTarget u.1 with
    | true =>
      simp [markup_congr halt,below_cons,figureOf]
    | false =>
      have hsource : x.1 ++ below (y.1::r.map (·.1)) =
          (x.1 ++ '\n' :: y.1) ++ below (r.map (·.1)) := by simp [below_cons]
      have hlength : ((x.1 ++ '\n' :: y.1) ++ below (r.map (·.1))).length - (below (r.map (·.1))).length =
          (x.1 ++ '\n' :: y.1).length := by
        rw [List.length_append]
        omega
      simp only [Bool.false_eq_true,if_false,hsource]
      rw [hlength,List.take_left]
      simp [below_cons]
  | case4 x y r hnone ih =>
    obtain ⟨⟨hfenced,hx⟩,hrest⟩ := List.forall_mem_cons.mp hxs
    have hmissed := hr.missed x.1 ((y::r).map (·.1)) hx (by
      have hx' : x = (x.1,false) := by rw [← hfenced]
      refine (pass?_eq_none_iff.mp hnone).imp (fun hlink => hx' ▸ hlink) ?_
      rintro hcaption k ⟨⟩
      simpa [isCaption,(hrest y (by simp)).1] using hcaption)
    rw [scanPairs,hnone]
    exact (hcopied x.1 _ hx hmissed).trans (congrArg (fun t => '\n' :: (x.1 ++ t)) (ih hrest))

theorem expandEach_joinLines {read? : Text → Option Reading} {form : Text → Bool}
    (hr : Reads read? form) {xs : List Line} (hxs : ∀ x ∈ xs, IsOpen x) :
    expandEach read? (joinLines (xs.map (·.1))) =
      joinLines ((scanPairs (pass? form) xs).map (·.1)) := by
  rw [joinLines_eq_tail ((scanPairs (pass? form) xs).map _),← expandOn_below hr hxs]
  cases xs with
  | nil => rfl
  | cons x xs => rw [below_eq (by simp),expandOn_newline]; rfl

theorem newline_not_mem_markup {src alt caption : Text} (hsrc : '\n' ∉ src) (halt : '\n' ∉ alt)
    (hcaption : '\n' ∉ caption) : '\n' ∉ markup src alt caption := by
  have htrim : ∀ t : Text, '\n' ∉ t → '\n' ∉ trim t := fun t ht hm => ht (mem_of_mem_trim hm)
  unfold markup
  repeat rw [List.append_assoc]
  refine List.not_mem_append (by decide) ?_
  refine List.not_mem_append (newline_not_mem_escapeAttribute (htrim _ hsrc)) ?_
  refine List.not_mem_append (by decide) ?_
  refine List.not_mem_append (newline_not_mem_escapeAttribute (htrim _ halt)) ?_
  refine List.not_mem_append (by decide) ?_
  exact List.not_mem_append (newline_not_mem_escapeContent (htrim _ hcaption)) (by decide)

/-- The figure of an image line has one line, and no link begins it. -/
theorem isOpen_figureOf {l : Text} {u : Text × Text} {k : Text} (hl : Bracketed l)
    (hu : target? l = some u) (hk : '\n' ∉ k) : IsOpen (figureOf u k) := by
  have hlink := eq_of_target? hu
  have hsrc : '\n' ∉ u.1 := fun hm => hl.line (by simp [hlink,hm])
  have hbehind : '\n' ∉ u.2 := fun hm => hl.line (by simp [hlink,hm])
  refine ⟨rfl,newline_not_mem_markup hsrc ?_ hk,fun h => nomatch h⟩
  split
  · exact hk
  · exact hbehind

theorem isOpen_scanPairs (form : Text → Bool) {xs : List Line} (hxs : ∀ x ∈ xs, IsOpen x) :
    ∀ z ∈ scanPairs (pass? form) xs, IsOpen z := by
  refine forall_mem_scanPairs (fun x y zs hx hy hzs => ?_) hxs
  obtain ⟨u,hu,-,rfl⟩ := pass?_eq_some_iff.mp hzs
  obtain ⟨-,htarget,-⟩ := linkLine?_eq_some_iff.mp hu
  split
  · simpa using isOpen_figureOf hx.2 htarget hy.2.line
  · simpa using ⟨hx,hy⟩

theorem expandSegment_joinLines {xs : List Line} (hxs : ∀ x ∈ xs, IsOpen x) :
    expandSegment (joinLines (xs.map (·.1))) = joinLines ((scanTwice xs).map (·.1)) := by
  rw [expandSegment,expandEach_joinLines reads_withAlt? hxs,
    expandEach_joinLines reads_withoutAlt? (isOpen_scanPairs isWide hxs)]
  rfl

theorem below_flush {buffer : List Text} (hbuffer : ∀ l ∈ buffer, Bracketed l) :
    below (expandLines.flush buffer) = below ((scanTwice (buffer.map (·,false))).map (·.1)) := by
  have hopen : ∀ x ∈ buffer.map (·,false), IsOpen x := by
    intro x hx
    obtain ⟨l,hl,rfl⟩ := List.mem_map.mp hx
    exact ⟨rfl,hbuffer l hl⟩
  have hsegment := expandSegment_joinLines hopen
  rw [List.map_map] at hsegment
  by_cases hne : buffer = []
  · subst hne
    rfl
  · have hscan : (scanTwice (buffer.map (·,false))).map (·.1) ≠ [] := by
      simpa using scanTwice_ne_nil (by simpa using hne)
    rw [expandLines.flush,if_neg (by simpa using hne),below_eq hscan,← hsegment]
    simp [below,Function.comp_def]

/-- Writing figures is two scans over lines; fences part them. -/
theorem below_expandLines {buffer : List Text} {xs : List Line} (hbuffer : ∀ l ∈ buffer, Bracketed l)
    (hxs : ∀ x ∈ xs, x.2 = false → Bracketed x.1) : below (expandLines buffer xs) =
      below ((scanTwice (buffer.map (·,false) ++ xs)).map (·.1)) := by
  induction xs generalizing buffer with
  | nil => simpa [expandLines] using below_flush hbuffer
  | cons x xs ih =>
    obtain ⟨l,fenced⟩ := x
    rw [List.forall_mem_cons] at hxs
    cases fenced with
    | true =>
      have hrest : below (expandLines [] xs) = below ((scanTwice xs).map (·.1)) :=
        ih (fun l hl => nomatch hl) hxs.2
      rw [expandLines,if_pos rfl,scanTwice_append_fenced,below_append,below_flush hbuffer,
        List.map_append,below_append,below_cons,hrest]
      rfl
    | false =>
      have hmore : ∀ k ∈ buffer ++ [l], Bracketed k := by
        simpa [or_imp,forall_and] using ⟨hbuffer,hxs.1 rfl⟩
      rw [expandLines,if_neg Bool.false_ne_true,ih hmore hxs.2]
      simp

/-- When every link that begins a line outside fences is closed on that line, writing figures is two
scans over the lines. They are one scan when no line stands in the way of the image below it. -/
theorem expand_eq_scan (t : Text)
    (h : ∀ x ∈ Fence.scan (lines t), x.2 = false → startsWith "![[".toList x.1 = true → ']' ∈ x.1) :
    expand t = joinLines ((scanTwice (Fence.scan (lines t))).map (·.1)) ∧
      (isUnmixed (Fence.scan (lines t)) = true → expand t = scanText t) := by
  have hlines : ∀ x ∈ Fence.scan (lines t), x.2 = false → Bracketed x.1 := by
    intro x hx hfenced
    have hmem : x.1 ∈ lines t := by
      rw [← Fence.map_fst_scanFrom .normal (lines t)]
      exact List.mem_map_of_mem hx
    exact ⟨newline_not_mem_lines hmem,h x hx hfenced⟩
  have hscan := @below_expandLines [] _ (fun l hl => nomatch hl) hlines
  have htwice : expand t = joinLines ((scanTwice (Fence.scan (lines t))).map (·.1)) := by
    rw [expand,joinLines_eq_tail,hscan,joinLines_eq_tail]
    rfl
  refine ⟨htwice,fun hunmixed => ?_⟩
  rw [htwice,scanTwice_eq_scanFigures hunmixed,scanText]

theorem expand_eq_scan_two : expand "![[a.png]] x\nc\n![[b.png]]\nd".toList =
    ("<figure><img src=\"a.png\" alt=\"x\"><figcaption>c</figcaption></figure>\n" ++
      "<figure><img src=\"b.png\" alt=\"d\"><figcaption>d</figcaption></figure>").toList := by
  refine ((expand_eq_scan _ ?_).2 ?_).trans ?_
  · have hall : (Fence.scan (lines "![[a.png]] x\nc\n![[b.png]]\nd".toList)).all (fun x =>
        x.2 || !startsWith "![[".toList x.1 || ']' ∈ x.1) = true := by decide +kernel
    intro x hx hfenced hlink
    simpa only [hfenced,hlink,Bool.not_true,Bool.false_or,decide_eq_true_eq] using
      List.all_eq_true.mp hall x hx
  · decide +kernel
  · decide +kernel

/-- A link to a text hides the image below it, and an image takes the figure below it as its
caption. -/
theorem expand_ne_scanText :
    expand "![[doc]] x\n![[a.png]] y\nc".toList ≠ scanText "![[doc]] x\n![[a.png]] y\nc".toList ∧
      expand "![[a.png]]\n![[b.png]] x\nc".toList ≠ scanText "![[a.png]]\n![[b.png]] x\nc".toList := by
  decide +kernel

end Figure
end Longform
