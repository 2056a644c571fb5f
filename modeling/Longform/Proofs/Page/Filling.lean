import Mathlib.Data.List.Chain
import Mathlib.Order.Defs.PartialOrder
import Longform.Page.Extent
import Longform.Page.Flow
import Longform.Proofs.Outcome

/-! How the blocks of a chapter come onto pages. A filling derives the pages from the answers to the
question what fits; what holds of every page and of neighbouring pages is read off its rules. No other
division of the blocks needs fewer pages. -/
namespace Longform
namespace Page

/-- The blocks `bs` come onto pages of which the first holds `page` already. -/
inductive Filling (fits : List Block → Except Fault Bool) :
    List Block → List Block → List (List Block) → Prop
  | blank : Filling fits [] [] []
  | last {page} : page ≠ [] → Filling fits page [] [page]
  | add {page b bs pages} : fits (page ++ [b]) = .ok true →
      Filling fits (page ++ [b]) bs pages → Filling fits page (b::bs) pages
  | alone {b bs pages} : fits [b] = .ok false →
      Filling fits [b] bs pages → Filling fits [] (b::bs) pages
  | turn {page b bs pages} (fit : Bool) : page ≠ [] → fits (page ++ [b]) = .ok false →
      fits [b] = .ok fit → Filling fits [b] bs pages → Filling fits page (b::bs) (page::pages)

section Run

variable {α : Type} {fits : List Block → Except Fault Bool}
  {close : Nat → List Block → Except Fault α} {index : Nat} {page bs : List Block} {b : Block}
  {pages : List (List Block)}

theorem fillFrom_add {r : Except Fault (List α)} (hb : fits (page ++ [b]) = .ok true)
    (h : (fillFrom fits close index (page ++ [b]) bs).Gives r) :
    (fillFrom fits close index page (b::bs)).Gives r := by
  rw [fillFrom]
  exact (Compile.gives_ofExcept hb).bind_ok (by simpa using h)

theorem fillFrom_alone {r : Except Fault (List α)} (hb : fits [b] = .ok false)
    (h : (fillFrom fits close index [b] bs).Gives r) :
    (fillFrom fits close index [] (b::bs)).Gives r := by
  rw [fillFrom]
  refine (Compile.gives_ofExcept hb).bind_ok ?_
  simp only [Bool.false_eq_true,if_false,List.isEmpty_nil,if_true]
  exact (Compile.gives_note _).bind_ok h

theorem fillFrom_turn {r : Except Fault (List α)} (hp : page ≠ [])
    (hb : fits (page ++ [b]) = .ok false)
    (h : ∀ fit, fits [b] = .ok fit → (fillFrom fits close (index+1) [b] bs).Gives r) :
    (fillFrom fits close index page (b::bs)).Gives
      (close index page >>= fun p => fits [b] >>= fun _ => r >>= fun rest => .ok (p::rest)) := by
  rw [fillFrom]
  refine (Compile.gives_ofExcept hb).bind_ok ?_
  simp only [Bool.false_eq_true,if_false,List.isEmpty_iff,hp]
  refine (Compile.gives_ofExcept rfl).bind fun p _ => ?_
  refine (Compile.gives_ofExcept rfl).bind fun fit hfit => ?_
  have hrest := (h fit hfit).bind
    (g:=fun rest => .ok (p::rest)) fun rest _ => Compile.gives_pure (p::rest)
  cases fit with
  | true => exact hrest
  | false => exact (Compile.gives_note _).bind_ok hrest

/-- A run that follows a filling finishes its pages one after the other. -/
theorem Filling.gives (h : Filling fits page bs pages) (close : Nat → List Block → Except Fault α)
    (index : Nat) : (fillFrom fits close index page bs).Gives
      ((pages.zipIdx index).mapM fun (p,i) => close i p) := by
  induction h generalizing index with
  | blank => exact Compile.gives_pure _
  | last hp =>
    simp only [fillFrom,List.isEmpty_iff,hp,if_false,List.zipIdx_cons,List.zipIdx_nil,
      List.mapM_cons,List.mapM_nil]
    exact (Compile.gives_ofExcept rfl).bind fun _ _ => Compile.gives_pure _
  | add hb _ ih => exact fillFrom_add hb (ih index)
  | alone hb _ ih => exact fillFrom_alone hb (ih index)
  | turn fit hp hb hfit _ ih =>
    rw [List.zipIdx_cons,List.mapM_cons]
    have hturn := fillFrom_turn hp hb fun _ _ => ih (index+1)
    rwa [hfit] at hturn

/-- Nothing is lost, repeated or moved. -/
theorem Filling.flatten (h : Filling fits page bs pages) : pages.flatten = page ++ bs := by
  induction h with
  | blank => rfl
  | last _ => simp
  | add _ _ ih => simpa using ih
  | alone _ _ ih => simpa using ih
  | turn _ _ _ _ _ ih => simp [ih]

/-- A question about neighbouring blocks, whether they fit or what page they make, ends with the fault. -/
def Asked (fits : List Block → Except Fault Bool) (close : Nat → List Block → Except Fault α)
    (bs : List Block) (e : Fault) : Prop :=
  ∃ us, us <:+: bs ∧ (fits us = .error e ∨ ∃ i, close i us = .error e)

theorem Asked.mono {bs cs : List Block} {e : Fault} (h : Asked fits close bs e) (hbs : bs <:+: cs) :
    Asked fits close cs e := by
  obtain ⟨us,hus,he⟩ := h
  exact ⟨us,hus.trans hbs,he⟩

/-- A run that no filling describes ends with the fault of a question. -/
theorem filling_or_fault (fits : List Block → Except Fault Bool)
    (close : Nat → List Block → Except Fault α) (index : Nat) (page bs : List Block) :
    (∃ pages, Filling fits page bs pages) ∨
      ∃ e, (fillFrom fits close index page bs).Gives (.error e) ∧ Asked fits close (page ++ bs) e := by
  induction bs generalizing index page with
  | nil =>
    by_cases hp : page = []
    · subst hp
      exact .inl ⟨_,.blank⟩
    · exact .inl ⟨_,.last hp⟩
  | cons b bs ih =>
    have hsnoc : page ++ b::bs = (page ++ [b]) ++ bs := by simp
    have halone : [b] ++ bs <:+: page ++ b::bs := ⟨page,[],by simp⟩
    rcases hb : fits (page ++ [b]) with e | fit
    · refine .inr ⟨e,?_,page ++ [b],⟨[],bs,by simp⟩,.inl hb⟩
      rw [fillFrom]
      exact (Compile.gives_ofExcept hb).bind_error
    cases fit with
    | true =>
      rcases ih index (page ++ [b]) with ⟨pages,h⟩ | ⟨e,h,hasked⟩
      · exact .inl ⟨pages,.add hb h⟩
      · exact .inr ⟨e,fillFrom_add hb h,hsnoc ▸ hasked⟩
    | false =>
      by_cases hp : page = []
      · subst hp
        rcases ih index [b] with ⟨pages,h⟩ | ⟨e,h,hasked⟩
        · exact .inl ⟨pages,.alone hb h⟩
        · exact .inr ⟨e,fillFrom_alone hb h,hasked⟩
      have hclose : ∀ e, close index page = .error e → Asked fits close (page ++ b::bs) e :=
        fun e he => ⟨page,⟨[],b::bs,by simp⟩,.inr ⟨index,he⟩⟩
      rcases hfit : fits [b] with e | fit
      · have h : ∀ fit, fits [b] = .ok fit →
            (fillFrom fits close (index+1) [b] bs).Gives (.error e) :=
          fun fit h => nomatch hfit.symm.trans h
        have hturn := fillFrom_turn hp hb h
        rw [hfit] at hturn
        rcases hc : close index page with e' | p <;> rw [hc] at hturn
        · exact .inr ⟨e',hturn,hclose e' hc⟩
        · exact .inr ⟨e,hturn,[b],⟨page,bs,by simp⟩,.inl hfit⟩
      rcases ih (index+1) [b] with ⟨pages,h⟩ | ⟨e,h,hasked⟩
      · exact .inl ⟨page::pages,.turn fit hp hb hfit h⟩
      · have hturn := fillFrom_turn hp hb fun _ _ => h
        rw [hfit] at hturn
        rcases hc : close index page with e' | p <;> rw [hc] at hturn
        · exact .inr ⟨e',hturn,hclose e' hc⟩
        · exact .inr ⟨e,hturn,hasked.mono halone⟩

/-- Blocks come onto pages when each question about neighbouring blocks has an answer. -/
theorem exists_filling (fits : List Block → Except Fault Bool) (page bs : List Block)
    (h : ∀ us, us <:+: page ++ bs → ∃ fit, fits us = .ok fit) :
    ∃ pages, Filling fits page bs pages := by
  rcases filling_or_fault fits (fun _ us => Except.ok us) 0 page bs with hf |
    ⟨e,-,us,hus,he | ⟨i,he⟩⟩
  · exact hf
  · obtain ⟨fit,hfit⟩ := h us hus
    exact nomatch hfit.symm.trans he
  · exact nomatch he

/-- A run finishes the pages of a filling one after the other, or ends with the fault of a question. -/
theorem fillFrom_ends (fits : List Block → Except Fault Bool)
    (close : Nat → List Block → Except Fault α) (index : Nat) (page bs : List Block) :
    (fillFrom fits close index page bs).Ends (fun ps => ∃ pages, Filling fits page bs pages ∧
      ((pages.zipIdx index).mapM fun (p,i) => close i p) = .ok ps) (Asked fits close (page ++ bs)) := by
  rcases filling_or_fault fits close index page bs with ⟨pages,hf⟩ | ⟨e,he,hasked⟩
  · have hgives := hf.gives close index
    rcases hm : (pages.zipIdx index).mapM fun (p,i) => close i p with e | ps
    · rw [hm] at hgives
      obtain ⟨⟨us,i⟩,hus,h⟩ := exists_of_mapM_error hm
      have hin := List.infix_of_mem_flatten (List.fst_mem_of_mem_zipIdx hus)
      rw [hf.flatten] at hin
      exact .inr ⟨e,hgives,us,hin,.inr ⟨i,h⟩⟩
    · rw [hm] at hgives
      exact .inl ⟨ps,hgives,pages,hf,hm⟩
  · exact .inr ⟨e,he,hasked⟩

end Run

section Pages

variable {fits : List Block → Except Fault Bool} {page bs : List Block} {pages : List (List Block)}

theorem Filling.ne_nil (h : Filling fits page bs pages) : ∀ p ∈ pages, p ≠ [] := by
  induction h with
  | blank => simp
  | last hp => simpa using hp
  | add _ _ ih => exact ih
  | alone _ _ ih => exact ih
  | turn _ hp _ _ _ ih => simpa using ⟨hp,ih⟩

/-- A page is accepted as a whole, unless a single block makes it up. -/
theorem Filling.fits_or_alone (h : Filling fits page bs pages)
    (hp : page.length ≤ 1 ∨ fits page = .ok true) :
    ∀ p ∈ pages, p.length ≤ 1 ∨ fits p = .ok true := by
  induction h with
  | blank => simp
  | last _ => simpa using hp
  | add hb _ ih => exact ih (.inr hb)
  | alone _ _ ih => exact ih (.inl (by simp))
  | turn _ _ _ _ _ ih =>
    intro p hmem
    rcases List.mem_cons.mp hmem with rfl | hmem
    · exact hp
    · exact ih (.inl (by simp)) p hmem

/-- What a page holds already stays at its beginning. -/
theorem Filling.head (h : Filling fits page bs pages) (hp : page ≠ []) :
    ∃ more rest, pages = (page ++ more)::rest := by
  induction h with
  | blank => exact absurd rfl hp
  | last _ => exact ⟨[],[],by simp⟩
  | @add _ b _ _ _ _ ih =>
    obtain ⟨more,rest,rfl⟩ := ih (by simp)
    exact ⟨b::more,rest,by simp⟩
  | alone _ _ _ => exact absurd rfl hp
  | turn _ _ _ _ _ _ => exact ⟨[],_,by rw [List.append_nil]⟩

/-- The first block of the page `q` has no room on the page `p`. -/
def Overflows (fits : List Block → Except Fault Bool) (p q : List Block) : Prop :=
  ∃ b, q.head? = some b ∧ fits (p ++ [b]) = .ok false

/-- A page ends only where the next block has no room on it. -/
theorem Filling.isChain (h : Filling fits page bs pages) : pages.IsChain (Overflows fits) := by
  induction h with
  | blank => exact .nil
  | last _ => exact .singleton _
  | add _ _ ih => exact ih
  | alone _ _ ih => exact ih
  | turn fit _ hb _ hf ih =>
    obtain ⟨more,rest,rfl⟩ := hf.head (by simp)
    exact ih.cons_cons ⟨_,rfl,hb⟩

/-- Pages that end only where the next block has no room stay ahead of every division into pieces
that fit. The pieces may have to place the blocks `late` as well. -/
theorem length_le_of_isChain (late : List Block) {pieces : List (List Block)}
    (hne : ∀ p ∈ pages, p ≠ []) (hchain : pages.IsChain (Overflows fits))
    (hpieces : pieces.flatten = late ++ pages.flatten)
    (hfit : ∀ p ∈ pieces, p.length = 1 ∨ ∀ us, us <:+: p → fits us ≠ .ok false) :
    pages.length ≤ pieces.length := by
  induction pages generalizing late pieces with
  | nil => simp
  | cons p pages ih =>
    have hp : p ≠ [] := hne p (by simp)
    cases pieces with
    | nil =>
      have hnil : p = [] := by simp_all
      exact absurd hnil hp
    | cons c pieces =>
      cases pages with
      | nil => simp
      | cons q pages =>
        obtain ⟨b,hq,hb⟩ := hchain.rel
        obtain ⟨q',rfl⟩ : ∃ q', q = b::q' := by
          cases q <;> simp_all
        have hbehind : ∃ late', pieces.flatten = late' ++ ((b::q')::pages).flatten := by
          rw [List.flatten_cons,List.flatten_cons,← List.append_assoc] at hpieces
          rcases List.append_eq_append_iff.mp hpieces with ⟨late',_,h⟩ | ⟨more,hc,h⟩
          · exact ⟨late',h⟩
          cases more with
          | nil => exact ⟨[],h.symm⟩
          | cons d more =>
            -- a piece that runs past the page would hold the block that has no room
            have hd : d = b := by simp_all
            subst hd
            have hlen : 0 < p.length := List.length_pos_iff.mpr hp
            rcases hfit c (by simp) with h1 | hwithin
            · simp [hc] at h1
              omega
            · exact absurd hb (hwithin _ ⟨late,more,by simp [hc]⟩)
        obtain ⟨late',h⟩ := hbehind
        have hlen := ih late' (fun r hr => hne r (by simp [hr])) hchain.tail h
          fun r hr => hfit r (by simp [hr])
        simpa using hlen

end Pages
end Page
end Longform
