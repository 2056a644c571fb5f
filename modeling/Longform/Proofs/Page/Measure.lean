import Mathlib.Algebra.Order.BigOperators.Group.List
import Mathlib.Algebra.Order.Ring.Rat
import Mathlib.Data.Rat.Floor
import Mathlib.Tactic.Linarith
import Mathlib.Tactic.NormNum
import Longform.Page.Extent
import Longform.Proofs.Html.Writing
import Longform.Proofs.Page.Greedy
import Longform.Proofs.Page.Numbering

/-! The estimate of lines in exact numbers. What stands in a list takes what its items take one by one, so
that putting items back into lists changes no estimate, and a page takes more with every block. -/
namespace Longform

namespace Page
open Html

/-! Sums. -/

/-- The sum of what some values come to, when each comes to a number. -/
def sumOf {β : Type} (f : β → Except Fault ℚ) (xs : List β) : Except Fault ℚ := (xs.mapM f).map List.sum

section Sum
variable {β : Type} {f : β → Except Fault ℚ} {x : β} {xs ys : List β}

theorem sumOf_nil : sumOf f [] = .ok 0 := rfl

theorem sumOf_cons : sumOf f (x::xs) = f x >>= fun a => sumOf f xs >>= fun b => .ok (a + b) := by
  rw [sumOf,sumOf,List.mapM_cons]
  cases f x with
  | error e => rfl
  | ok a =>
    cases xs.mapM f with
    | error e => rfl
    | ok as => exact congrArg Except.ok List.sum_cons

theorem sumOf_singleton (x : β) : sumOf f [x] = f x := by
  rw [sumOf_cons,sumOf_nil]
  cases f x with
  | error e => rfl
  | ok a => exact congrArg Except.ok (add_zero a)

theorem sumOf_map {γ : Type} (g : γ → β) (ys : List γ) :
    sumOf f (ys.map g) = sumOf (fun y => f (g y)) ys := by
  simp only [sumOf,List.mapM_map]
  rfl

theorem sumOf_append :
    sumOf f (xs ++ ys) = sumOf f xs >>= fun a => sumOf f ys >>= fun b => .ok (a + b) := by
  rw [sumOf,sumOf,sumOf,List.mapM_append]
  cases xs.mapM f with
  | error e => rfl
  | ok as =>
    cases ys.mapM f with
    | error e => rfl
    | ok bs => exact congrArg Except.ok List.sum_append

theorem sumOf_nonneg (h : ∀ x a, f x = .ok a → 0 ≤ a) {a : ℚ} (ha : sumOf f xs = .ok a) : 0 ≤ a := by
  induction xs generalizing a with
  | nil =>
    cases ha
    exact le_refl 0
  | cons x xs ih =>
    rw [sumOf_cons] at ha
    obtain ⟨b,hb,ha⟩ := bind_eq_ok_iff.mp ha
    obtain ⟨d,hd,ha⟩ := bind_eq_ok_iff.mp ha
    cases ha
    exact add_nonneg (h x b hb) (ih hd)

end Sum

/-! Measuring. -/

/-- Measuring in exact numbers. -/
def exact : Arithmetic ℚ where
  zero := 0
  add x y := x + y
  times x n := x * n
  lines n x := if x = 0 then .error .divisionByZero else .ok ⌈(n : ℚ) / x⌉

/-- How many lines a line of text takes. -/
def lineExtent (c : Costs ℚ) (l : Text) : ℚ := ⌈(l.length : ℚ) / c.charsPerLine⌉

/-- What the lines, the blocks and the images of some nodes take. -/
def treeExtent (c : Costs ℚ) (ns : List Node) : ℚ :=
  ((fullLines (shownText ns)).map (lineExtent c)).sum + c.blockCost * Node.countAll isBlockName ns +
    c.imageLines * Node.countAll (· = "img".toList) ns

/-- What a fragment takes, when it can be read. -/
def fragmentExtent (c : Costs ℚ) (f : Text) : Except Fault ℚ := (Html.parse f).map (treeExtent c)

theorem fragmentExtent_of_parse {c : Costs ℚ} {f : Text} {ns : List Node} (h : Html.parse f = .ok ns) :
    fragmentExtent c f = .ok (treeExtent c ns) := by
  rw [fragmentExtent,h]
  rfl

section Measuring
variable {c : Costs ℚ} (hline : 0 < c.charsPerLine)

include hline in
theorem addLines_exact (total : ℚ) (ls : List Text) :
    addLines exact c total ls = .ok (total + (ls.map (lineExtent c)).sum) := by
  induction ls generalizing total with
  | nil => simp [addLines]
  | cons l ls ih =>
    have hcount : exact.lines l.length c.charsPerLine = .ok (lineExtent c l) := if_neg hline.ne'
    simp only [addLines,hcount,ih,List.map_cons,List.sum_cons]
    exact congrArg Except.ok (add_assoc _ _ _)

include hline in
theorem addNodes_exact (total : ℚ) (ns : List Node) :
    addNodes exact c total ns = .ok (total + treeExtent c ns) := by
  rw [addNodes,addLines_exact hline]
  refine congrArg Except.ok ?_
  show total + _ + c.blockCost * _ + c.imageLines * _ = _
  rw [treeExtent,add_assoc total,add_assoc total]

include hline in
theorem estimateFrom_exact (total : ℚ) (fs : List Text) : estimateFrom exact c total fs =
    (sumOf (fragmentExtent c) fs).map (total + ·) := by
  induction fs generalizing total with
  | nil => exact congrArg Except.ok (add_zero total).symm
  | cons f fs ih =>
    rw [estimateFrom,sumOf_cons]
    cases hparse : Html.parse f with
    | error e =>
      rw [fragmentExtent,hparse]
      rfl
    | ok ns =>
      rw [fragmentExtent_of_parse hparse]
      show (addNodes exact c total ns >>= fun total => estimateFrom exact c total fs) = _
      rw [addNodes_exact hline]
      show estimateFrom exact c (total + treeExtent c ns) fs = _
      rw [ih]
      cases sumOf (fragmentExtent c) fs with
      | error e => rfl
      | ok b => exact congrArg Except.ok (add_assoc _ _ _)

include hline in
theorem estimate_exact (fs : List Text) :
    estimate exact c fs = sumOf (fragmentExtent c) fs := by
  have hzero : exact.zero = 0 := rfl
  rw [estimate,estimateFrom_exact hline,hzero]
  cases sumOf (fragmentExtent c) fs with
  | error e => rfl
  | ok b => exact congrArg Except.ok (zero_add b)

include hline in
theorem estimate_singleton (f : Text) : estimate exact c [f] = fragmentExtent c f := by
  rw [estimate_exact hline,sumOf_singleton]

include hline in
theorem extent_of_assemble {us : List Block} {fs : List Text} (h : assemble us = .ok fs) :
    extent (estimate exact c) us = sumOf (fragmentExtent c) fs := by
  rw [extent,h]
  exact estimate_exact hline fs

include hline in
theorem sumOf_estimate (us : List Block) : sumOf (fun u => estimate exact c [u.html]) us =
    sumOf (fragmentExtent c) (us.map (·.html)) := by
  rw [sumOf_map]
  exact congrArg (fun f => sumOf f us) (funext fun u => estimate_singleton hline u.html)

end Measuring

/-! Nodes on lines of their own. -/

section Lines
variable {c : Costs ℚ}

theorem fullLines_append_newline (a b : Text) :
    fullLines (a ++ '\n' :: b) = fullLines a ++ fullLines b := by
  simp only [fullLines,Text.lines_append_newline,List.map_append,List.filter_append]

theorem fullLines_newline_cons (t : Text) : fullLines ('\n' :: t) = fullLines t := by
  have hnone : fullLines [] = [] := by decide
  have happ := fullLines_append_newline [] t
  rwa [hnone,List.nil_append,List.nil_append] at happ

theorem onLines_cons (x : Node) (xs : List Node) : onLines (x::xs) = newline::x::onLines xs := rfl

theorem exists_shownTexts_onLines (xs : List Node) :
    ∃ t, Node.shownTexts (onLines xs) = '\n' :: t := by
  cases xs with
  | nil => exact ⟨[],rfl⟩
  | cons x xs => exact ⟨_,rfl⟩

theorem fullLines_onLines (x : Node) (xs : List Node) : fullLines (Node.shownTexts (onLines (x::xs))) =
    fullLines (Node.shownTexts [x]) ++ fullLines (Node.shownTexts (onLines xs)) := by
  obtain ⟨t,ht⟩ := exists_shownTexts_onLines xs
  have htext : Node.shownTexts (onLines (x::xs)) = '\n' :: (Node.shownTexts [x] ++ '\n' :: t) := by
    rw [onLines_cons,← ht]
    simp [Node.shownTexts,Node.shownText,newline]
  rw [htext,fullLines_newline_cons,fullLines_append_newline,ht,fullLines_newline_cons]

theorem countAll_onLines (p : Text → Bool) (x : Node) (xs : List Node) :
    Node.countAll p (onLines (x::xs)) = Node.countAll p [x] + Node.countAll p (onLines xs) := by
  simp [onLines_cons,Node.countAll,Node.count,newline]

/-- Nodes on lines of their own take what they take one by one. -/
theorem treeExtent_onLines (c : Costs ℚ) (xs : List Node) :
    treeExtent c (onLines xs) = (xs.map fun x => treeExtent c [x]).sum := by
  induction xs with
  | nil =>
    have hnone : fullLines (Html.shownText (onLines [])) = [] := by decide
    rw [treeExtent,hnone]
    simp [onLines,Node.countAll,Node.count,newline]
  | cons x xs ih =>
    rw [List.map_cons,List.sum_cons,← ih]
    simp only [treeExtent,Html.shownText,fullLines_onLines,countAll_onLines,List.map_append,List.sum_append,
      Nat.cast_add]
    ring

/-- A list takes nothing of its own. -/
theorem treeExtent_list {tag : Text} {attrs : Dictionary Text} {inside : List Node}
    (h : isList tag = true) : treeExtent c [.element tag attrs inside] = treeExtent c inside := by
  have hnames : isBlockName tag = false ∧ decide (tag = "img".toList) = false := by
    rcases eq_of_isList h with rfl | rfl <;> decide
  have htext : Html.shownText [.element tag attrs inside] = Html.shownText inside := List.append_nil _
  have hcount : ∀ p : Text → Bool, p tag = false →
      Node.countAll p [.element tag attrs inside] = Node.countAll p inside := by
    intro p hp
    simp [Node.countAll,Node.count,hp]
  rw [treeExtent,treeExtent,htext,hcount _ hnames.1,hcount _ hnames.2]

theorem treeExtent_nonneg (hline : 0 < c.charsPerLine) (hblock : 0 ≤ c.blockCost)
    (himage : 0 ≤ c.imageLines) (ns : List Node) : 0 ≤ treeExtent c ns := by
  have hlines : 0 ≤ ((fullLines (Html.shownText ns)).map (lineExtent c)).sum := by
    refine List.sum_nonneg (List.forall_mem_map.mpr fun l _ => ?_)
    exact Int.cast_nonneg (Int.ceil_nonneg (div_nonneg (Nat.cast_nonneg _) hline.le))
  exact add_nonneg (add_nonneg hlines (mul_nonneg hblock (Nat.cast_nonneg _)))
    (mul_nonneg himage (Nat.cast_nonneg _))

theorem fragmentExtent_nonneg (hline : 0 < c.charsPerLine) (hblock : 0 ≤ c.blockCost)
    (himage : 0 ≤ c.imageLines) {f : Text} {x : ℚ} (h : fragmentExtent c f = .ok x) : 0 ≤ x := by
  cases hparse : Html.parse f with
  | error e =>
    rw [fragmentExtent,hparse] at h
    cases h
  | ok ns =>
    rw [fragmentExtent_of_parse hparse] at h
    cases h
    exact treeExtent_nonneg hline hblock himage ns

end Lines

/-! Items and their lists. -/

section Runs
variable {r : Run} {ns : List Node} {f : Text}

theorem isContainer_of_isList {tag : Text} (h : isList tag = true) : IsContainer tag := by
  rcases eq_of_isList h with rfl | rfl <;> exact isContainer_cons (by decide)

/-- The items of a run are read of their markup one by one. -/
theorem forall₂_shows_items (hr : r.IsOf ns) (hs : ∀ n ∈ ns, Sound [] n) (hclear : ItemsClear ns) :
    List.Forall₂ Shows (r.items.map (Node.markup false))
      (r.items.map fun n => (blockNode n).reread []) := by
  refine List.forall₂_map_left_iff.mpr (List.forall₂_map_right_iff.mpr (List.forall₂_same.mpr ?_))
  intro n hn
  obtain ⟨hitem,hlegible⟩ := hr.legible_items hs hclear n hn
  obtain ⟨as,children,rfl⟩ := exists_of_isElement hitem
  exact shows_markup hlegible rfl rfl

/-- The list that a run is put together to holds the items as they are read one by one, on lines of their
own. -/
theorem exists_shows_list (hr : r.IsOf ns) (hs : ∀ n ∈ ns, Sound [] n) (hclear : ItemsClear ns)
    (hf : listMarkup ⟨r.tag,r.attrs,r.position,r.first⟩ (r.items.map (Node.markup false)) = .ok f) :
    ∃ attrs, Shows f (.element r.tag attrs
      (onLines (r.items.map fun n => (blockNode n).reread []))) := by
  obtain ⟨⟨source,hsource,-⟩,htag,hne⟩ := id hr
  obtain ⟨-,hkept,-⟩ := hs _ (List.mem_of_getElem? hsource)
  obtain ⟨attrs,hattrs⟩ := exists_attributes hf
  obtain ⟨hkept',-,-⟩ := attributes_ok htag hkept hattrs
  have hshow := shows_onLines (isContainer_of_isList htag) (hkept'.nameable)
    (forall₂_shows_items hr hs hclear)
  have htexts : r.items.map (Node.markup false) ≠ [] := by simpa using hne
  rw [listMarkup_eq hattrs] at hf
  cases hf
  refine ⟨asRead r.tag attrs,?_⟩
  rw [Text.below_eq htexts] at hshow
  simpa only [elementText,startText,endText,List.append_assoc,List.cons_append,List.nil_append] using hshow

/-- Texts that each show a node take what these nodes take. -/
theorem sumOf_of_shows {c : Costs ℚ} {ts : List Text} {xs : List Node} (h : List.Forall₂ Shows ts xs) :
    sumOf (fragmentExtent c) ts =
      .ok (xs.map fun x => treeExtent c [x]).sum := by
  induction h with
  | nil => rfl
  | cons hfirst _ ih =>
    rw [sumOf_cons,fragmentExtent_of_parse hfirst.parse_eq,ih]
    exact congrArg Except.ok List.sum_cons.symm

/-- A part takes what its blocks take one by one. -/
theorem sumOf_blocks {part : Part} (hpart : ∀ r, part = .run r → r.IsOf ns)
    (hs : ∀ n ∈ ns, Sound [] n) (hclear : ItemsClear ns) (h : part.IsFragment f) (c : Costs ℚ) :
    sumOf (fragmentExtent c) (part.blocks.map (·.html)) =
      fragmentExtent c f := by
  cases part with
  | whole html =>
    obtain rfl : f = html := h
    show sumOf _ [f] = _
    exact sumOf_singleton f
  | run r =>
    have hr := hpart r rfl
    obtain ⟨attrs,hshow⟩ := exists_shows_list hr hs hclear h
    have hhtml : (Part.run r).blocks.map (·.html) = r.items.map (Node.markup false) := map_html_runBlocks
    rw [hhtml,sumOf_of_shows (forall₂_shows_items hr hs hclear),fragmentExtent_of_parse hshow.parse_eq]
    exact congrArg Except.ok ((treeExtent_onLines c _).symm.trans (treeExtent_list hr.tag).symm)

theorem sumOf_fragments {parts : List Part} {fs : List Text} (hfs : List.Forall₂ Part.IsFragment parts fs)
    (hparts : ∀ r, .run r ∈ parts → r.IsOf ns) (hs : ∀ n ∈ ns, Sound [] n) (hclear : ItemsClear ns)
    (c : Costs ℚ) : sumOf (fragmentExtent c) fs =
      sumOf (fragmentExtent c) ((parts.flatMap Part.blocks).map (·.html)) := by
  induction hfs with
  | nil => rfl
  | @cons part f parts fs hf _ ih =>
    have hfirst := sumOf_blocks (fun r hr => hparts r (hr ▸ List.mem_cons_self)) hs hclear hf c
    rw [List.flatMap_cons,List.map_append,sumOf_append,hfirst,sumOf_cons,
      ih fun r hr => hparts r (List.mem_cons_of_mem _ hr)]

end Runs

/-! Runs of the blocks of a chapter. -/

section Chapter
variable {html : Text} {ns : List Node} {c : Costs ℚ} {bs : List Block}

/-- Neighbouring blocks of a chapter that can be put together take what they take one by one. -/
theorem extent_estimate (hparse : Html.parse html = .ok ns) (hclear : ItemsClear ns)
    (hline : 0 < c.charsPerLine) (hcut : cut html = .ok bs) {us : List Block} (hus : us <:+: bs)
    {fs : List Text} (hfs : assemble us = .ok fs) :
    extent (estimate exact c) us = sumOf (fun u => estimate exact c [u.html]) us := by
  obtain rfl := Except.ok.inj ((cut_eq hparse).symm.trans hcut)
  obtain ⟨parts,hparts⟩ := exists_divided hus
  have hall := sumOf_fragments (forall₂_isFragment hparts hfs) hparts.runs (sound_of_parse hparse) hclear c
  rw [extent_of_assemble hline hfs,sumOf_estimate hline,hall,← hparts.blocks]

/-- What is measured of some blocks together is what is measured of them one by one, so that items can be
put back into their lists at no cost, and a longer run of blocks never takes less. Only a list that is not
counted on, because its number is too long, is not measured. -/
theorem estimate_additive (hparse : Html.parse html = .ok ns) (hnum : NumberedLists html)
    (hclear : ItemsClear ns) (hline : 0 < c.charsPerLine) (hblock : 0 ≤ c.blockCost)
    (himage : 0 ≤ c.imageLines) : ∃ bs, cut html = .ok bs ∧
      (∀ us, us <:+: bs →
        extent (estimate exact c) us = sumOf (fun u => estimate exact c [u.html]) us ∨
        ∃ e, Decimal.TooLong e ∧ Uncounted html e ∧ assemble us = .error e) ∧
      Grows (estimate exact c) bs := by
  have hcut := cut_eq hparse
  refine ⟨_,hcut,fun us hus => ?_,fun us vs x y hus hvs hx hy => ?_⟩
  · rcases hfs : assemble us with e | fs
    · have hcount := uncounted_of_assemble hcut hus hfs
      exact .inr ⟨e,hcount.tooLong hnum,hcount,rfl⟩
    · exact .inl (extent_estimate hparse hclear hline hcut hus hfs)
  have hextent : ∀ {us x}, us <:+: blocksFrom 0 ns → extent (estimate exact c) us = .ok x →
      sumOf (fun u => estimate exact c [u.html]) us = .ok x := by
    intro us x hus hx
    obtain ⟨fs,hfs,-⟩ := bind_eq_ok_iff.mp hx
    exact (extent_estimate hparse hclear hline hcut hus hfs).symm.trans hx
  have hnonneg : ∀ (u : Block) a, estimate exact c [u.html] = .ok a → 0 ≤ a := by
    intro u a ha
    rw [estimate_singleton hline] at ha
    exact fragmentExtent_nonneg hline hblock himage ha
  replace hx := hextent (hus.trans hvs) hx
  replace hy := hextent hvs hy
  obtain ⟨before,behind,rfl⟩ := hus
  rw [sumOf_append,sumOf_append] at hy
  obtain ⟨most,hmost,hy⟩ := bind_eq_ok_iff.mp hy
  obtain ⟨a,ha,hmost⟩ := bind_eq_ok_iff.mp hmost
  obtain ⟨z,hz,hmost⟩ := bind_eq_ok_iff.mp hmost
  obtain ⟨d,hd,hy⟩ := bind_eq_ok_iff.mp hy
  cases hx.symm.trans hz
  cases hmost
  cases hy
  have hbefore := sumOf_nonneg hnonneg ha
  have hbehind := sumOf_nonneg hnonneg hd
  linarith

theorem numberedLists_of_parse {items : List Node}
    (h : Html.parse html = .ok [.element "ol".toList [] items]) : NumberedLists html := by
  intro ns hns attrs children hmem
  cases h.symm.trans hns
  cases List.mem_singleton.mp hmem
  exact fun t ht => nomatch ht

/-- The default costs in exact numbers. -/
def exactCosts : Costs ℚ := ⟨72,1,8⟩

theorem exactCosts_pos : 0 < exactCosts.charsPerLine ∧ 0 ≤ exactCosts.blockCost ∧
    0 ≤ exactCosts.imageLines := by
  norm_num [exactCosts]

/-- One letter in some blocks. -/
theorem fragmentExtent_letter {f : Text} (ns : List Node) (l : Char) {blocks : Nat}
    (hparse : Html.parse f = .ok ns) (hlines : fullLines (Html.shownText ns) = [[l]])
    (hblocks : Node.countAll isBlockName ns = blocks)
    (himages : Node.countAll (fun name => name = "img".toList) ns = 0) :
    fragmentExtent exactCosts f = .ok (1 + blocks) := by
  rw [fragmentExtent_of_parse hparse,treeExtent,hlines,hblocks,himages]
  norm_num [lineExtent,exactCosts,Int.ceil_eq_iff]

/-- Two items that take two lines each take four together. -/
theorem estimate_additive_two :
    let html := "<ol><li>a</li><li>b</li></ol>".toList
    ∃ bs, cut html = .ok bs ∧ bs.length = 2 ∧ extent (estimate exact exactCosts) bs = .ok 4 ∧
      Grows (estimate exact exactCosts) bs := by
  intro html
  have hparse : Html.parse "<ol><li>a</li><li>b</li></ol>".toList = .ok [.element "ol".toList []
      [.element "li".toList [] [.text .shown ['a']],.element "li".toList [] [.text .shown ['b']]]] := by
    rfl
  have hnum : NumberedLists html := numberedLists_of_parse hparse
  have hclear : ItemsClear [.element "ol".toList []
      [.element "li".toList [] [.text .shown ['a']],.element "li".toList [] [.text .shown ['b']]]] := by
    intro name attrs children hmem _ n hn _
    cases List.mem_singleton.mp hmem
    simp only [List.mem_cons,List.not_mem_nil,or_false] at hn
    rcases hn with rfl | rfl <;>
      exact ⟨by decide,fun h => absurd h (by decide),clear_text (by decide),trivial⟩
  obtain ⟨hline,hblock,himage⟩ := exactCosts_pos
  obtain ⟨bs,hcut,hsum,hgrows⟩ := estimate_additive hparse hnum hclear hline hblock himage
  have hbs : bs = [⟨"<li>a</li>".toList,some ⟨"ol".toList,[],0,0⟩⟩,
      ⟨"<li>b</li>".toList,some ⟨"ol".toList,[],0,1⟩⟩] :=
    Except.ok.inj (hcut.symm.trans ((cut_eq hparse).trans rfl))
  have ha : fragmentExtent exactCosts "<li>a</li>".toList = .ok (1 + (1 : Nat)) :=
    fragmentExtent_letter [.element "li".toList [] [.text .shown ['a']]] 'a' (by rfl) (by decide)
      (by decide) (by decide)
  have hb : fragmentExtent exactCosts "<li>b</li>".toList = .ok (1 + (1 : Nat)) :=
    fragmentExtent_letter [.element "li".toList [] [.text .shown ['b']]] 'b' (by rfl) (by decide)
      (by decide) (by decide)
  subst hbs
  refine ⟨_,hcut,rfl,?_,hgrows⟩
  have hassemble : assemble (runBlocks "ol".toList [] 0 0
      [.element "li".toList [] [.text .shown ['a']],.element "li".toList [] [.text .shown ['b']]]) =
        .ok ["<ol>\n<li>a</li>\n<li>b</li>\n</ol>".toList] := assemble_runBlocks (by simp) rfl
  have hadditive := (hsum _ (List.infix_refl _)).resolve_right fun ⟨_,_,_,h⟩ =>
    nomatch hassemble.symm.trans h
  rw [hadditive,sumOf_cons,sumOf_singleton,estimate_singleton hline,
    estimate_singleton hline,ha,hb]
  exact congrArg Except.ok (by norm_num)

/-- A declaration in an item is written as an instruction that ends before the tags in it. In the list they
hide the text of the item behind, so that the list takes less than its items. -/
theorem not_estimate_additive : ¬∀ (html : Text) (ns : List Node) (bs : List Block) (c : Costs ℚ),
    Html.parse html = .ok ns → NumberedLists html → cut html = .ok bs → 0 < c.charsPerLine →
    0 ≤ c.blockCost → 0 ≤ c.imageLines → ∀ us, us <:+: bs →
    extent (estimate exact c) us = sumOf (fun u => estimate exact c [u.html]) us := by
  intro h
  let items : List Node := [.element "li".toList [] [.text .shown ['a'],
      .text .declaration "if ></li><template>".toList],.element "li".toList [] [.text .shown ['b']]]
  have hparse : Html.parse "<ol><li>a<![if ></li><template>]></li><li>b</li></ol>".toList =
      .ok [.element "ol".toList [] items] := by rfl
  have hnum := numberedLists_of_parse hparse
  obtain ⟨hline,hblock,himage⟩ := exactCosts_pos
  have hsum := h _ _ _ exactCosts hparse hnum (cut_eq hparse) hline hblock himage _ (List.infix_refl _)
  have hblocks : blocksFrom 0 [.element "ol".toList [] items] = runBlocks "ol".toList [] 0 0 items := rfl
  have hhtml : (runBlocks "ol".toList [] 0 0 items).map (·.html) =
      ["<li>a<?if ></li><template>?></li>".toList,"<li>b</li>".toList] := rfl
  have hassemble : assemble (runBlocks "ol".toList [] 0 0 items) =
      .ok ["<ol>\n<li>a<?if ></li><template>?></li>\n<li>b</li>\n</ol>".toList] :=
    assemble_runBlocks (by simp [items]) rfl
  let first : Node := .element "li".toList [] [.text .shown ['a'],.text .instruction "if ".toList]
  have hlist : fragmentExtent exactCosts
      "<ol>\n<li>a<?if ></li><template>?></li>\n<li>b</li>\n</ol>".toList = .ok (1 + (2 : Nat)) :=
    fragmentExtent_letter [.element "ol".toList [] [newline,first,.element "template".toList []
      [.text .side "?>".toList,.text .side ['\n'],.element "li".toList [] [.text .side ['b']],
        .text .side ['\n']]]] 'a' (by rfl) (by decide) (by decide) (by decide)
  have hfirst : fragmentExtent exactCosts "<li>a<?if ></li><template>?></li>".toList =
      .ok (1 + (1 : Nat)) :=
    fragmentExtent_letter [first,.element "template".toList [] [.text .side "?>".toList]] 'a' (by rfl)
      (by decide) (by decide) (by decide)
  have hsecond : fragmentExtent exactCosts "<li>b</li>".toList = .ok (1 + (1 : Nat)) :=
    fragmentExtent_letter [.element "li".toList [] [.text .shown ['b']]] 'b' (by rfl) (by decide)
      (by decide) (by decide)
  rw [hblocks,extent_of_assemble hline hassemble,sumOf_singleton,hlist,sumOf_estimate hline,hhtml,
    sumOf_cons,sumOf_singleton,hfirst,hsecond] at hsum
  have hequal : (1 + (2 : Nat) : ℚ) = 1 + (1 : Nat) + (1 + (1 : Nat)) := Except.ok.inj hsum
  exact absurd hequal (by norm_num)

end Chapter

end Page
end Longform
