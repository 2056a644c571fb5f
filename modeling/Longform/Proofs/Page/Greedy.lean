import Mathlib.Data.List.Flatten
import Longform.Proofs.Page.Assembly
import Longform.Proofs.Page.Filling

/-! Filling pages up to a capacity. A page holds more than its capacity only when a single block does,
the next block never has room, and for an extent that grows with what is measured no division of the
blocks needs fewer pages. -/
namespace Longform
namespace Page

/-- The blocks of each page of a chapter. -/
def flow (fits : List Text → Except Fault Bool) (bs : List Block) : Compile (List (List Block)) :=
  fill (fitBlocks fits) (fun _ page => .ok page) 1 bs

theorem flow_gives_iff {fits : List Text → Except Fault Bool} {bs : List Block}
    {pages : List (List Block)} :
    (flow fits bs).Gives (.ok pages) ↔ Filling (fitBlocks fits) [] bs pages := by
  have hgives : ∀ ps, Filling (fitBlocks fits) [] bs ps → (flow fits bs).Gives (.ok ps) := by
    intro ps hf
    have h := hf.gives (fun _ page => .ok page) 1
    have hmap := List.mapM_pure (m:=Except Fault) (l:=ps.zipIdx 1) (f:=Prod.fst)
    rw [List.zipIdx_map_fst] at hmap
    exact fun ns => (h ns).trans hmap
  constructor
  · intro h
    rcases filling_or_fault (fitBlocks fits) (fun _ page => .ok page) 1 [] bs with ⟨ps,hf⟩ | ⟨e,he,-⟩
    · have heq := Compile.Gives.unique h (hgives ps hf)
      cases heq
      exact hf
    · exact nomatch Compile.Gives.unique h he
  · exact hgives pages

section Extent

variable {α : Type}

/-- The extent of some blocks on one page. -/
def extent (measure : List Text → Except Fault α) (bs : List Block) : Except Fault α := do
  measure (← assemble bs)

/-- Longer runs of the blocks never take less room. -/
def Grows [LE α] (measure : List Text → Except Fault α) (bs : List Block) : Prop :=
  ∀ us vs x y, us <:+: vs → vs <:+: bs →
    extent measure us = .ok x → extent measure vs = .ok y → x ≤ y

variable [Preorder α] [DecidableLE α] {measure : List Text → Except Fault α} {capacity : α}
  {bs : List Block}

theorem fitBlocks_fitsIn : fitBlocks (fitsIn measure capacity) bs =
    (extent measure bs).map fun x => decide (x ≤ capacity) := by
  unfold fitBlocks extent
  cases assemble bs <;> rfl

theorem fitBlocks_eq_true_iff : fitBlocks (fitsIn measure capacity) bs = .ok true ↔
    ∃ x, extent measure bs = .ok x ∧ x ≤ capacity := by
  rw [fitBlocks_fitsIn]
  cases extent measure bs <;> simp [Except.map]

theorem fitBlocks_eq_false_iff [Std.Total (α:=α) (· ≤ ·)] :
    fitBlocks (fitsIn measure capacity) bs = .ok false ↔
      ∃ x, extent measure bs = .ok x ∧ capacity < x := by
  rw [fitBlocks_fitsIn]
  cases extent measure bs with
  | error e => simp [Except.map]
  | ok x =>
    have h : ¬x ≤ capacity ↔ capacity < x :=
      ⟨fun h => lt_of_le_not_ge ((Std.Total.total x capacity).resolve_left h) h,not_le_of_gt⟩
    simpa [Except.map] using h

/-- A page exceeds its capacity only when a single block does, a page ends only where the next block
would exceed it, and no division into pieces that keep to it has fewer of them when the extent grows.
The pages are there as soon as every run of the blocks has an extent. -/
theorem flow_keeps_capacity [Std.Total (α:=α) (· ≤ ·)] (measure : List Text → Except Fault α)
    (capacity : α) (bs : List Block) :
    ((∀ us, us <:+: bs → ∃ x, extent measure us = .ok x) →
      ∃ pages, (flow (fitsIn measure capacity) bs).Gives (.ok pages)) ∧
    ∀ pages, (flow (fitsIn measure capacity) bs).Gives (.ok pages) →
      pages.flatten = bs ∧ (∀ p ∈ pages, p ≠ []) ∧
      (∀ p ∈ pages, 2 ≤ p.length → ∃ x, extent measure p = .ok x ∧ x ≤ capacity) ∧
      (∀ p ∈ pages, ∀ x, extent measure p = .ok x → capacity < x → p.length = 1) ∧
      (∀ p q, [p,q] <:+: pages → ∃ b, q.head? = some b ∧
        ∃ x, extent measure (p ++ [b]) = .ok x ∧ capacity < x) ∧
      (Grows measure bs → ∀ pieces : List (List Block), pieces.flatten = bs →
        (∀ p ∈ pieces, p ≠ [] ∧ (p.length = 1 ∨ ∃ x, extent measure p = .ok x ∧ x ≤ capacity)) →
        pages.length ≤ pieces.length) := by
  constructor
  · intro h
    have hfits : ∀ us, us <:+: [] ++ bs →
        ∃ fit, fitBlocks (fitsIn measure capacity) us = .ok fit := by
      intro us hus
      obtain ⟨x,hx⟩ := h us hus
      exact ⟨decide (x ≤ capacity),by rw [fitBlocks_fitsIn,hx]; rfl⟩
    obtain ⟨pages,hf⟩ := exists_filling _ [] bs hfits
    exact ⟨pages,flow_gives_iff.mpr hf⟩
  intro pages hpages
  have hf := flow_gives_iff.mp hpages
  have hroom : ∀ p ∈ pages, 2 ≤ p.length → ∃ x, extent measure p = .ok x ∧ x ≤ capacity := by
    intro p hp hlen
    rcases hf.fits_or_alone (.inl (by simp)) p hp with h | h
    · omega
    · exact fitBlocks_eq_true_iff.mp h
  refine ⟨hf.flatten,hf.ne_nil,hroom,?_,?_,?_⟩
  · intro p hp x hx hlt
    have hpos := List.length_pos_iff.mpr (hf.ne_nil p hp)
    by_contra hne
    obtain ⟨y,hy,hle⟩ := hroom p hp (by omega)
    have hxy : x = y := Except.ok.inj (hx.symm.trans hy)
    subst hxy
    exact not_le_of_gt hlt hle
  · intro p q hpq
    have hpair : [p,q].IsChain _ := List.IsChain.infix hf.isChain hpq
    obtain ⟨b,hb,hover⟩ := hpair.rel
    exact ⟨b,hb,fitBlocks_eq_false_iff.mp hover⟩
  · intro hgrows pieces hpieces hkeep
    refine length_le_of_isChain [] hf.ne_nil hf.isChain (by simp [hpieces,hf.flatten]) ?_
    intro p hp
    refine (hkeep p hp).2.imp_right ?_
    rintro ⟨y,hy,hle⟩ us hus hno
    obtain ⟨x,hx,hlt⟩ := fitBlocks_eq_false_iff.mp hno
    have hin : p <:+: bs := hpieces ▸ List.infix_of_mem_flatten hp
    exact not_le_of_gt hlt ((hgrows us p x y hus hin hx hy).trans hle)

/-- An oversized block, then two that share a page, then one more: three pages at least. -/
theorem flow_keeps_capacity_four :
    let letters : List Text → Except Fault Nat := fun fs => .ok fs.flatten.length
    let a : Block := ⟨"aaaaa".toList,none⟩
    let b : Block := ⟨"b".toList,none⟩
    let c : Block := ⟨"cc".toList,none⟩
    Grows letters [a,b,c,b] ∧ (flow (fitsIn letters 3) [a,b,c,b]).Gives (.ok [[a],[b,c],[b]]) ∧
      ∀ pieces : List (List Block), pieces.flatten = [a,b,c,b] →
        (∀ p ∈ pieces, p ≠ [] ∧ (p.length = 1 ∨ ∃ x, extent letters p = .ok x ∧ x ≤ 3)) →
        3 ≤ pieces.length := by
  intro letters a b c
  have hextent : ∀ us : List Block, (∀ u ∈ us, u.membership = none) →
      extent letters us = .ok (us.map (·.html)).flatten.length := by
    intro us hus
    rw [extent,assemble_plain hus]
    rfl
  have hfits : ∀ us : List Block, (∀ u ∈ us, u.membership = none) →
      fitBlocks (fitsIn letters 3) us = .ok (decide ((us.map (·.html)).flatten.length ≤ 3)) := by
    intro us hus
    rw [fitBlocks_fitsIn,hextent us hus]
    rfl
  have hplain : ∀ u ∈ [a,b,c,b], u.membership = none := by simp [a,b,c]
  have hgrows : Grows letters [a,b,c,b] := by
    intro us vs x y hus hvs hx hy
    rw [hextent us fun u hu => hplain u ((hus.trans hvs).subset hu)] at hx
    rw [hextent vs fun u hu => hplain u (hvs.subset hu)] at hy
    cases hx
    cases hy
    exact (hus.sublist.map _).flatten.length_le
  have hpages : (flow (fitsIn letters 3) [a,b,c,b]).Gives (.ok [[a],[b,c],[b]]) := by
    refine flow_gives_iff.mpr (.alone (hfits [a] (by simp [a])) ?_)
    refine .turn true (by simp) (hfits [a,b] (by simp [a,b])) (hfits [b] (by simp [b])) ?_
    refine .add (hfits [b,c] (by simp [b,c])) ?_
    refine .turn true (by simp) (hfits [b,c,b] (by simp [b,c])) (hfits [b] (by simp [b])) ?_
    exact .last (by simp)
  exact ⟨hgrows,hpages,((flow_keeps_capacity letters 3 [a,b,c,b]).2 _ hpages).2.2.2.2.2 hgrows⟩

end Extent
end Page
end Longform
