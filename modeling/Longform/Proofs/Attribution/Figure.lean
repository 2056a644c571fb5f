import Longform.Proofs.Attribution.Line
import Longform.Proofs.Token.Shape

/-! What attributing the quotes of a stream does to its blocks. Each quote that ends with a paragraph
with a marked line becomes a figure: its opening is marked, the paragraph loses the line and what
follows, and a caption with these is put behind the closing. Nothing else changes. -/
namespace Longform
namespace Attribution
open Token

/-- How many lines a paragraph with these children has. -/
def lineCount (children : List Token) : Nat := (children.filter isBreak).length + 1

/-- What is left of a paragraph that keeps some children. -/
def remainder (o i c : Token) (kept : List Token) : List Token :=
  if kept.isEmpty then []
  else
    let content := Text.joinLines ((Text.lines i.content).take (lineCount kept))
    [o,{ i with children := some kept, content := content },c]

/-- The caption from a paragraph that keeps some children. -/
def figcaption (marker : Text) (i : Token) (kept line : List Token) : List Token :=
  caption marker
    (if kept.isEmpty then i.content
      else Text.joinLines ((Text.lines i.content).drop (lineCount kept))) line

/-- The children of a caption: the marked line without its marker, and what follows it. -/
def captionChildren (marker : Text) (first : Token) (rest : List Token) : List Token :=
  Token.ofText (afterMarker marker first.content)::rest

/-- The last block is a paragraph with a marked line. -/
def EndsMarked (marker : Text) (ts : List Token) : Prop :=
  ∃ front o i c before line, ts = front ++ [o,i,c] ∧ c.kind = "paragraph_close" ∧
    i.children.getD [] = before ++ line ∧ MarkedLine marker true before line

/-- The stream `us` is `ts` with its quotes attributed. -/
inductive Attributed (marker : Text) : Int → List Token → List Token → Prop
  | nil {level} : Attributed marker level [] []
  | leaf {level ts us t} : Attributed marker level ts us → IsLeaf level t →
      Attributed marker level (ts ++ [t]) (us ++ [t])
  | paragraph {level ts us o i c} : Attributed marker level ts us → IsParagraph level o i c →
      Attributed marker level (ts ++ [o,i,c]) (us ++ [o,i,c])
  | container {level ts us inner inner' o c} : Attributed marker level ts us →
      Attributed marker (level+1) inner inner' → IsContainer level o c →
      Attributed marker level (ts ++ o::(inner ++ [c])) (us ++ o::(inner' ++ [c]))
  | quote {level ts us inner inner' o c} : Attributed marker level ts us →
      Attributed marker (level+1) inner inner' → IsQuote level o c → ¬EndsMarked marker inner →
      Attributed marker level (ts ++ o::(inner ++ [c])) (us ++ o::(inner' ++ [c]))
  | figure {level ts us front front' o c po i pc before first rest kept} :
      Attributed marker level ts us → Attributed marker (level+1) front front' →
      IsQuote level o c → IsParagraph (level+1) po i pc →
      FirstMarked marker true (i.children.getD []) before (first::rest) →
      kept = before.rdropWhile isBreak →
      Attributed marker level (ts ++ o::(front ++ [po,i,pc] ++ [c]))
        (us ++ mark o::(front' ++ remainder po i pc kept ++
          c::figcaption marker i kept (captionChildren marker first rest)))

section Opening

variable {level : Int} {o : Token} {xs before : List Token}

/-- The nearest opening at the level of a closing is the one that it matches. -/
theorem markOpening?_append (hxs : ∀ t ∈ xs, isOpening level t = false)
    (ho : isOpening level o = true) :
    markOpening? level (xs ++ o::before) = some (xs ++ mark o::before) := by
  induction xs with
  | nil => simp [markOpening?,ho]
  | cons t xs ih =>
    rw [List.forall_mem_cons] at hxs
    simp [markOpening?,hxs.1,ih hxs.2]

theorem length_markOpening? {marked : List Token} (h : markOpening? level xs = some marked) :
    marked.length = xs.length := by
  induction xs generalizing marked with
  | nil => exact nomatch h
  | cons t xs ih =>
    rw [markOpening?] at h
    split at h
    · cases h
      rfl
    · obtain ⟨rest,hrest,rfl⟩ := Option.map_eq_some_iff.mp h
      rw [List.length_cons,List.length_cons,ih hrest]

end Opening

section Attach

variable {marker : Text} {level : Int} {before xs : List Token} {o i c po pc : Token}

/-- A figure is made of a quote when its last paragraph can be split. -/
theorem exists_split_of_attach? {a : Attached} (h : attach? marker before c = some a) :
    a.before.length ≤ before.length ∧ ∃ pc i rest parts, before = pc::i::rest ∧
      pc.kind = "paragraph_close" ∧ split? marker (i.children.getD []) = some parts := by
  unfold attach? at h
  split at h
  · rename_i last text third rest marked hmarked
    have hlen := length_markOpening? hmarked
    split at h
    · rename_i hkinds
      simp only [Bool.and_eq_true,decide_eq_true_eq] at hkinds
      split at h
      · exact nomatch h
      rename_i hparts
      refine ⟨?_,_,_,_,_,rfl,hkinds.1.1,hparts⟩
      split at h <;> cases h
      · rw [List.length_drop,hlen]
        exact Nat.sub_le _ _
      · simp [hlen]
    · exact nomatch h
  · exact nomatch h

/-- Attaching the last paragraph of a quote, `xs` being the blocks in front of it. -/
theorem attach?_eq_some {kept line : List Token} (hq : IsQuote level o c)
    (hp : IsParagraph (level+1) po i pc) (hxs : ∀ t ∈ xs, level < t.level)
    (hsplit : split? marker (i.children.getD []) = some (kept,line)) :
    attach? marker (pc::i::po::(xs ++ o::before)) c =
      some ⟨(remainder po i pc kept).reverse ++ (xs ++ mark o::before),c,
        figcaption marker i kept line⟩ := by
  have hinner : ∀ t ∈ pc::i::po::xs, isOpening level t = false := by
    have hne : ∀ t : Token, level < t.level → isOpening level t = false := fun t ht => by
      simp [isOpening,Int.ne_of_gt ht]
    simp only [List.forall_mem_cons]
    refine ⟨hne pc ?_,hne i ?_,hne po ?_,fun t ht => hne t (hxs t ht)⟩
    · rw [hp.closing_level]; omega
    · rw [hp.text_level]; omega
    · rw [hp.opening_level]; omega
  have hopen : isOpening level o = true := by
    simp [isOpening,hq.opening_kind,hq.opening_level]
  have hmarked := @markOpening?_append _ _ _ before hinner hopen
  have hpo : isOpening level po = false := hinner po (by simp)
  simp only [List.cons_append] at hmarked
  unfold attach?
  rw [hq.closing_level,hmarked]
  simp only [hp.closing_kind,hp.closing_level,hp.text_kind,hsplit,hpo,decide_true,Bool.and_self,
    if_true]
  cases kept <;> simp [remainder,figcaption,lineCount,hp.text_kind]

end Attach

section Visit

variable {marker : Text} {t : Token} {before after : List Token}

/-- Visiting all that is in front. -/
def visit (marker : Text) (before after : List Token) : List Token :=
  attachFrom marker before.length before after

/-- Fuel for one step a token is enough. -/
theorem attachFrom_fuel {n m : Nat} (hn : before.length ≤ n) (hm : before.length ≤ m) :
    attachFrom marker n before after = attachFrom marker m before after := by
  induction n generalizing m before after with
  | zero =>
    obtain rfl := List.length_eq_zero_iff.mp (Nat.le_zero.mp hn)
    cases m <;> rfl
  | succ n ih =>
    cases before with
    | nil => cases m <;> rfl
    | cons t before =>
      cases m with
      | zero => exact absurd hm (Nat.not_succ_le_zero _)
      | succ m =>
        rw [List.length_cons] at hn hm
        rw [attachFrom,attachFrom]
        split
        · rename_i a ha
          have hlen : a.before.length ≤ before.length := by
            split at ha
            · exact (exists_split_of_attach? ha).1
            · exact nomatch ha
          exact ih (by omega) (by omega)
        · exact ih (by omega) (by omega)

@[simp] theorem visit_nil : visit marker [] after = after := rfl

/-- A token that attaches nothing is passed. -/
theorem visit_cons (h : t.kind = "blockquote_close" → attach? marker before t = none) :
    visit marker (t::before) after = visit marker before (t::after) := by
  rw [visit,List.length_cons,attachFrom]
  have hnone : (if t.kind = "blockquote_close" then attach? marker before t else none) = none := by
    split
    · exact h ‹_›
    · rfl
  rw [hnone]
  rfl

theorem visit_attach {a : Attached} (ht : t.kind = "blockquote_close")
    (ha : attach? marker before t = some a) : visit marker (t::before) after =
      visit marker a.before (a.closing::(a.figcaption ++ after)) := by
  rw [visit,List.length_cons,attachFrom,if_pos ht,ha]
  exact attachFrom_fuel (exists_split_of_attach? ha).1 (Nat.le_refl _)

/-- Visiting the tokens `ts` leaves `us`, whatever stands around them. -/
def Leaves (marker : Text) (ts us : List Token) : Prop :=
  ∀ before after, visit marker (ts.reverse ++ before) after = visit marker before (us ++ after)

variable {ts ts' us us' : List Token}

theorem leaves_nil : Leaves marker [] [] := fun _ _ => rfl

theorem Leaves.append (h : Leaves marker ts us) (h' : Leaves marker ts' us') :
    Leaves marker (ts ++ ts') (us ++ us') := by
  intro before after
  rw [List.reverse_append,List.append_assoc,h',h,List.append_assoc]

theorem leaves_self (h : ∀ t ∈ ts, t.kind ≠ "blockquote_close") : Leaves marker ts ts := by
  induction ts with
  | nil => exact leaves_nil
  | cons t ts ih =>
    obtain ⟨ht,hts⟩ := List.forall_mem_cons.mp h
    have hone : Leaves marker [t] [t] := fun before after => visit_cons fun hk => absurd hk ht
    exact hone.append (ih hts)

/-- An opening is passed; the closing behind it is where a figure could be made. -/
theorem Leaves.enclose {o c : Token} (h : Leaves marker ts us) (ho : o.kind ≠ "blockquote_close")
    (hc : c.kind = "blockquote_close" → ∀ before, attach? marker (ts.reverse ++ o::before) c = none) :
    Leaves marker (o::(ts ++ [c])) (o::(us ++ [c])) := by
  intro before after
  have hreverse : (o::(ts ++ [c])).reverse ++ before = c::(ts.reverse ++ o::before) := by simp
  rw [hreverse,visit_cons fun h => hc h before,h,visit_cons fun h => absurd h ho]
  simp

end Visit

section Run

variable {marker : Text} {level : Int} {ts inner front front' : List Token} {o c po i pc : Token}

/-- The paragraph at the end of some blocks can be split only at a marked line. -/
theorem attach?_eq_none {before : List Token} (hinner : Shaped (level+1) inner)
    (hq : IsQuote level o c) (hends : ¬EndsMarked marker inner) :
    attach? marker (inner.reverse ++ o::before) c = none := by
  rw [Option.eq_none_iff_forall_ne_some]
  intro a ha
  obtain ⟨-,pc,i,rest,⟨kept,line⟩,hbefore,hpc,hsplit⟩ := exists_split_of_attach? ha
  obtain ⟨front,first,more,hfirst,-,-⟩ := exists_firstMarked hsplit
  rcases List.eq_nil_or_concat' inner with rfl | ⟨xs,t,rfl⟩
  · obtain ⟨rfl,-⟩ := List.cons_eq_cons.mp hbefore
    exact absurd (hpc.symm.trans hq.opening_kind) (by decide)
  rw [List.reverse_append,List.reverse_singleton,List.singleton_append,List.cons_append] at hbefore
  obtain ⟨rfl,hrest⟩ := List.cons_eq_cons.mp hbefore
  obtain ⟨blocks,po,text,rfl,-,-⟩ := hinner.exists_paragraph hpc
  rw [List.reverse_append] at hrest
  obtain ⟨rfl,-⟩ := List.cons_eq_cons.mp hrest
  exact hends ⟨blocks,po,_,_,front,_,by simp,hpc,hfirst.eq_append,hfirst.marked⟩

/-- A quote with a marked line at its end becomes a figure, and its blocks are visited afterwards. -/
theorem Leaves.figure {kept line : List Token} (hq : IsQuote level o c)
    (hp : IsParagraph (level+1) po i pc) (hlevel : ∀ t ∈ front, level < t.level)
    (hsplit : split? marker (i.children.getD []) = some (kept,line))
    (hfront : Leaves marker front front') :
    Leaves marker (o::(front ++ [po,i,pc] ++ [c]))
      (mark o::(front' ++ remainder po i pc kept ++ c::figcaption marker i kept line)) := by
  intro before after
  have hreversed : ∀ t ∈ front.reverse, level < t.level := by simpa using hlevel
  have hattach : attach? marker (pc::i::po::(front.reverse ++ o::before)) c = _ :=
    attach?_eq_some hq hp hreversed hsplit
  have hremainder : Leaves marker (remainder po i pc kept) (remainder po i pc kept) := by
    refine leaves_self ?_
    unfold remainder
    split <;> simp [hp.opening_kind,hp.text_kind,hp.closing_kind]
  have hreverse : (o::(front ++ [po,i,pc] ++ [c])).reverse ++ before =
      c::pc::i::po::(front.reverse ++ o::before) := by simp
  have hmark : (mark o).kind ≠ "blockquote_close" := by
    rw [show (mark o).kind = o.kind from rfl,hq.opening_kind]
    decide
  rw [hreverse,visit_attach hq.closing_kind hattach,hremainder,hfront,
    visit_cons fun h => absurd h hmark]
  simp

/-- Visiting blocks attributes their quotes. -/
theorem exists_attributed (h : Shaped level ts) :
    ∃ us, Attributed marker level ts us ∧ Leaves marker ts us := by
  -- the blocks of a quote without its last paragraph are no part of the derivation
  induction hlen : ts.length using Nat.strongRecOn generalizing level ts with
  | ind n ih =>
    subst hlen
    cases h with
    | nil => exact ⟨[],.nil,leaves_nil⟩
    | leaf hts ht =>
      obtain ⟨us,hus,hleaves⟩ := ih _ (by simp) hts rfl
      refine ⟨_,.leaf hus ht,hleaves.append (leaves_self ?_)⟩
      simpa using kind_ne ht.kind_notMem (by decide)
    | paragraph hts hp =>
      obtain ⟨us,hus,hleaves⟩ := ih _ (by simp) hts rfl
      refine ⟨_,.paragraph hus hp,hleaves.append (leaves_self ?_)⟩
      simp [hp.opening_kind,hp.text_kind,hp.closing_kind]
    | @container _ ts inner o c hts hinner hc =>
      obtain ⟨us,hus,hleaves⟩ := ih _ (by simp) hts rfl
      obtain ⟨inner',hinner',hleaves'⟩ := ih _ (by simp; omega) hinner rfl
      exact ⟨_,.container hus hinner' hc,hleaves.append (hleaves'.enclose
        (kind_ne hc.opening_kind (by decide)) (fun h => absurd h (kind_ne hc.closing_kind (by decide))))⟩
    | @quote _ ts inner o c hts hinner hq =>
      obtain ⟨us,hus,hleaves⟩ := ih _ (by simp) hts rfl
      have ho : o.kind ≠ "blockquote_close" := by
        rw [hq.opening_kind]
        decide
      by_cases hends : EndsMarked marker inner
      · obtain ⟨front,po,i,pc,before,line,rfl,hpc,hchildren,hline⟩ := hends
        have hshape : Shaped (level+1) (front ++ [po,i] ++ [pc]) := by simpa using hinner
        obtain ⟨front',po',i',happ,hfront,hp⟩ := hshape.exists_paragraph hpc
        obtain ⟨rfl,hpair⟩ := List.append_inj' happ rfl
        cases hpair
        obtain ⟨front',hfront',hleaves'⟩ := ih _ (by simp; omega) hfront rfl
        have hne : split? marker (i.children.getD []) ≠ none := fun hnone =>
          split?_eq_none_iff.mp hnone before line hchildren hline
        obtain ⟨⟨kept,caption⟩,hsplit⟩ := Option.ne_none_iff_exists'.mp hne
        obtain ⟨_,_,_,hfirst,hkept,rfl⟩ := exists_firstMarked hsplit
        exact ⟨_,.figure hus hfront' hq hp hfirst hkept,hleaves.append
          (Leaves.figure hq hp (fun t ht => hfront.level_le t ht) hsplit hleaves')⟩
      · obtain ⟨inner',hinner',hleaves'⟩ := ih _ (by simp; omega) hinner rfl
        exact ⟨_,.quote hus hinner' hq hends,hleaves.append (hleaves'.enclose ho fun _ _ =>
          attach?_eq_none hinner hq hends)⟩

theorem attributed_attach (h : Shaped level ts) : Attributed marker level ts (attach marker ts) := by
  obtain ⟨us,hus,hleaves⟩ := @exists_attributed marker _ _ h
  have hrun := hleaves [] []
  rw [List.append_nil,List.append_nil,visit_nil,visit,List.length_reverse] at hrun
  rwa [attach,hrun]

end Run
end Attribution
end Longform
