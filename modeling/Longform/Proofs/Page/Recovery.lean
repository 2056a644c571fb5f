import Longform.Proofs.Html.SoundReader
import Longform.Proofs.Page.Assembly
import Longform.Proofs.Page.Fragment

/-! A rendered text that is cut into blocks and put together again. What is read of it then is what was
read of it before, up to white space where blocks meet, if the strings at the top need no references
and stand apart. -/
namespace Longform
namespace Page
open Html

/-- A shown string of blanks. -/
def isBlankString : Node → Bool
  | .text .shown t => Text.allBlank t
  | _ => false

/-- Nodes without the strings of blanks among them. -/
def pruned (ns : List Node) : List Node := ns.filter fun n => !isBlankString n

/-- A node without the white space that cutting a text may change. -/
def outlined : Node → Node
  | .text kind t => .text kind (Text.trim t)
  | .element name attrs children =>
    .element name attrs (if isList name then pruned children else children)

/-- The nodes of a text without the white space that cutting it may change: at the top, at the ends of
strings there, and between the items of lists there. -/
def outline (ns : List Node) : List Node := (pruned ns).map outlined

def isItem (n : Node) : Bool := n.isElement "li".toList

/-- A list of items, with white space between. -/
def IsItemList (children : List Node) : Prop :=
  (∃ n ∈ children, isItem n = true) ∧ ∀ n ∈ children, isItem n = true ∨ isBlankString n = true

/-- A node at the top of a text that blocks keep. -/
def Keepable : Node → Prop
  | .text kind t => kind = .shown ∧ ∀ c ∈ t, IsPlain c
  | .element name attrs children =>
    if isList name then
      IsItemList children ∧ ∀ n ∈ children, isItem n = true → Clear n ∧ Distinct n
    else Clear (.element name attrs children) ∧ Distinct (.element name attrs children)

/-- The node that the fragment of a node is markup of. -/
def standIn : Node → Node
  | .text _ t => .text .shown t
  | .element name attrs children =>
    if isList name then .element name attrs
      (newline::((Node.printedAll (children.filter isItem)).intersperse newline ++ [newline]))
    else .element name (sortedAttrs attrs) (Node.printedAll children)

/-! Cutting and putting together. -/

/-- The blocks of nodes, the first of which is at a position. -/
def blocksFrom : Nat → List Node → List Block
  | _, [] => []
  | position, n::ns => nodeBlocks n position ++ blocksFrom (position + 1) ns

theorem blocksFrom_eq (position : Nat) (ns : List Node) :
    ((ns.zipIdx position).flatMap fun (n,i) => nodeBlocks n i) = blocksFrom position ns := by
  induction ns generalizing position with
  | nil => rfl
  | cons n ns ih => rw [List.zipIdx_cons,List.flatMap_cons,ih,blocksFrom]

theorem cut_eq {html : Text} {ns : List Node} (h : Html.parse html = .ok ns) :
    cut html = .ok (blocksFrom 0 ns) := by
  rw [cut,h,← blocksFrom_eq]
  rfl

section Blocks
variable {list : Int} {bs rest : List Block}

theorem spanList_append (h : ∀ b ∈ bs, ∃ m, b.membership = some m ∧ m.list = list)
    (hrest : ∀ b ∈ rest, ∀ m, b.membership = some m → m.list ≠ list) :
    spanList list (bs ++ rest) = (bs.map (·.html),rest) := by
  induction bs with
  | nil =>
    cases rest with
    | nil => rfl
    | cons b rest =>
      have hb : (b.membership.any fun m => m.list = list) = false := by
        cases hm : b.membership with
        | none => rfl
        | some m => simpa using hrest b (by simp) m hm
      simp [spanList,hb]
  | cons b bs ih =>
    obtain ⟨⟨m,hm,hlist⟩,hbs⟩ := List.forall_mem_cons.mp h
    simp [spanList,hm,hlist,ih hbs]

theorem assemble_single {t : Text} {fs : List Text} (h : assemble rest = .ok fs) :
    assemble (⟨t,none⟩::rest) = .ok (t::fs) := by
  rw [assemble,h]
  rfl

/-- The blocks of neighbouring items of a list, the first of which has the ordinal `first`. -/
def runBlocks (tag : Text) (attrs : Dictionary Text) (position first : Nat) (items : List Node) :
    List Block :=
  (items.zipIdx first).map fun x => ⟨x.1.markup false,some ⟨tag,attrs,position,x.2⟩⟩

section Items
variable {tag : Text} {attrs : Dictionary Text} {position first : Nat} {items : List Node}

theorem itemBlocks_eq (children : List Node) :
    itemBlocks tag attrs position children = runBlocks tag attrs position 0 (children.filter isItem) :=
  rfl

theorem membership_of_mem_runBlocks {b : Block} (hb : b ∈ runBlocks tag attrs position first items) :
    ∃ m, b.membership = some m ∧ m.list = position := by
  obtain ⟨x,-,rfl⟩ := List.mem_map.mp hb
  exact ⟨_,rfl,rfl⟩

theorem map_html_runBlocks :
    (runBlocks tag attrs position first items).map (·.html) = items.map (Node.markup false) := by
  have hfst := congrArg (List.map (Node.markup false)) (List.zipIdx_map_fst first items)
  rw [List.map_map] at hfst
  rw [runBlocks,List.map_map,← hfst]
  rfl

/-- The blocks of neighbouring items are put together to a list. -/
theorem assemble_run (hitems : items ≠ [])
    (hrest : ∀ b ∈ rest, ∀ m, b.membership = some m → m.list ≠ position) :
    assemble (runBlocks tag attrs position first items ++ rest) =
      listMarkup ⟨tag,attrs,position,first⟩ (items.map (Node.markup false)) >>= fun t =>
        assemble rest >>= fun fs => .ok (t::fs) := by
  obtain ⟨item,items,rfl⟩ := List.exists_cons_of_ne_nil hitems
  have hcons : runBlocks tag attrs position first (item::items) =
      ⟨item.markup false,some ⟨tag,attrs,position,first⟩⟩::
        runBlocks tag attrs position (first + 1) items := rfl
  have hspan := @spanList_append position (runBlocks tag attrs position (first + 1) items) rest
    (fun b hb => membership_of_mem_runBlocks hb) hrest
  rw [map_html_runBlocks] at hspan
  rw [hcons,List.cons_append,assemble]
  simp only [hspan,List.map_cons]

end Items

end Blocks

theorem le_list_of_mem {ns : List Node} {position : Nat} {b : Block}
    (hb : b ∈ blocksFrom position ns) {m : Membership} (hm : b.membership = some m) :
    (position : Int) ≤ m.list := by
  induction ns generalizing position with
  | nil => simp [blocksFrom] at hb
  | cons n ns ih =>
    rw [blocksFrom,List.mem_append] at hb
    rcases hb with hb | hb
    · cases n with
      | text kind t =>
        simp only [nodeBlocks] at hb
        split at hb
        · simp at hb
        · rw [List.mem_singleton] at hb
          simp [hb] at hm
      | element name attrs children =>
        simp only [nodeBlocks] at hb
        split at hb
        · obtain ⟨⟨item,ordinal⟩,-,rfl⟩ := List.mem_map.mp hb
          cases hm
          exact Int.le_refl _
        · rw [List.mem_singleton] at hb
          simp [hb] at hm
    · have hle := ih hb
      omega

theorem exists_of_isElement {n : Node} {name : Text} (h : n.isElement name = true) :
    ∃ attrs children, n = .element name attrs children := by
  cases n with
  | text kind t => cases h
  | element tag attrs children =>
    have htag : tag = name := by simpa [Node.isElement] using h
    exact ⟨attrs,children,htag ▸ rfl⟩

/-- Elements are printed one by one. -/
theorem reads_items (around : List Text) {items : List Node}
    (h : ∀ n ∈ items, isItem n = true ∧ Sound around n ∧ Clear n) :
    List.Forall₂ (fun f x => Reads f [x]) (items.map (Node.markup false))
      (Node.printedAll items) := by
  induction items with
  | nil => exact .nil
  | cons n ns ih =>
    obtain ⟨⟨hitem,hsound,hclear⟩,hns⟩ := List.forall_mem_cons.mp h
    obtain ⟨attrs,children,rfl⟩ := exists_of_isElement hitem
    exact .cons (reads_node (legible_of_sound hsound hclear)) (ih hns)

theorem reads_standIn_list {name : Text} {attrs : Dictionary Text} {children : List Node}
    (hlist : isList name = true) (hs : Sound [] (.element name attrs children))
    (hk : Keepable (.element name attrs children)) (position : Nat) :
    ∃ t, listMarkup ⟨name,attrs,position,0⟩ ((children.filter isItem).map (Node.markup false)) =
        .ok t ∧ Reads t [standIn (.element name attrs children)] := by
  obtain ⟨-,hattrs,-,-,hchildren⟩ := hs
  obtain ⟨-,hitems⟩ := (if_pos hlist).mp hk
  have hmember : attributes ⟨name,attrs,position,0⟩ = .ok attrs := by
    simp [attributes,Dictionary.ofEntries_of_nodup hattrs.nodup]
  have hread : List.Forall₂ (fun f x => Reads f [x])
      ((children.filter isItem).map (Node.markup false))
      (Node.printedAll (children.filter isItem)) := by
    refine reads_items [name] fun n hn => ?_
    obtain ⟨hmem,hitem⟩ := List.mem_filter.mp hn
    exact ⟨hitem,soundAll_iff.mp hchildren n hmem,(hitems n hmem hitem).1⟩
  refine ⟨_,listMarkup_eq hmember,?_⟩
  rw [standIn,if_pos hlist]
  exact reads_listMarkup (m:=⟨name,attrs,position,0⟩) hlist hmember hattrs.names hread
    (listMarkup_eq hmember)

/-- The blocks of nodes are put together to a fragment for each node. -/
theorem exists_fragments {ns : List Node} (hs : ∀ n ∈ ns, Sound [] n) (hk : ∀ n ∈ ns, Keepable n)
    (position : Nat) : ∃ fs, assemble (blocksFrom position ns) = .ok fs ∧
      List.Forall₂ (fun f x => Reads f [x]) fs ((pruned ns).map standIn) := by
  induction ns generalizing position with
  | nil => exact ⟨[],by rw [blocksFrom,assemble],.nil⟩
  | cons n ns ih =>
    obtain ⟨hsound,hsounds⟩ := List.forall_mem_cons.mp hs
    obtain ⟨hkeep,hkeeps⟩ := List.forall_mem_cons.mp hk
    obtain ⟨fs,hfs,hread⟩ := ih hsounds hkeeps (position+1)
    rw [blocksFrom]
    cases n with
    | text kind t =>
      obtain ⟨rfl,hplain⟩ := hkeep
      by_cases hblank : Text.allBlank t = true
      · have hnone : nodeBlocks (.text .shown t) position = [] := if_pos hblank
        refine ⟨fs,?_,?_⟩
        · rw [hnone]
          exact hfs
        · simpa [pruned,isBlankString,hblank] using hread
      · have hone : nodeBlocks (.text .shown t) position = [⟨t,none⟩] := if_neg hblank
        refine ⟨t::fs,?_,?_⟩
        · rw [hone]
          exact assemble_single hfs
        · have hkept : pruned (.text .shown t::ns) = .text .shown t::pruned ns := by
            simp [pruned,isBlankString,hblank]
          rw [hkept,List.map_cons]
          exact .cons (reads_plain hplain) hread
    | element name attrs children =>
      have hkept : pruned (.element name attrs children::ns) =
          .element name attrs children::pruned ns := rfl
      rw [hkept,List.map_cons]
      by_cases hlist : isList name = true
      · obtain ⟨t,ht,htext⟩ := reads_standIn_list hlist hsound hkeep position
        have hitems : nodeBlocks (.element name attrs children) position =
            itemBlocks name attrs position children := if_pos hlist
        refine ⟨t::fs,?_,.cons htext hread⟩
        obtain ⟨item,hmem,hitem⟩ := ((if_pos hlist).mp hkeep).1.1
        have hne := List.ne_nil_of_mem (List.mem_filter.mpr ⟨hmem,hitem⟩)
        rw [hitems,itemBlocks_eq]
        rw [assemble_run hne fun b hb m hm => ?_]
        · rw [Int.natCast_zero,ht,hfs]
          rfl
        · have hle := le_list_of_mem hb hm
          omega
      · have hone : nodeBlocks (.element name attrs children) position =
            [⟨(Node.element name attrs children).markup false,none⟩] := if_neg hlist
        refine ⟨(Node.element name attrs children).markup false::fs,?_,.cons ?_ hread⟩
        · rw [hone]
          exact assemble_single hfs
        · have hclear : Clear (.element name attrs children) := ((if_neg hlist).mp hkeep).1
          have hnode := reads_node (legible_of_sound hsound hclear)
          rw [standIn,if_neg hlist]
          exact hnode

/-! Reading again. -/

/-- The reader squeezes nothing but blanks. -/
theorem squeeze_of_not_allBlank {t : Text} (h : Text.allBlank t = false) :
    Builder.squeeze t = t := by
  obtain ⟨c,hc,hblank⟩ : ∃ c ∈ t, Text.isBlank c = false := by
    simpa [Text.allBlank] using h
  have hplain : Builder.isPlainBlank c = false := by
    cases hp : Builder.isPlainBlank c with
    | false => rfl
    | true =>
      unfold Builder.isPlainBlank at hp
      simp only [Bool.or_eq_true,decide_eq_true_eq] at hp
      rcases hp with (((rfl | rfl) | rfl) | rfl) | rfl <;> cases hblank
  have hall : t.all Builder.isPlainBlank = false := List.all_eq_false.mpr ⟨c,hc,by simp [hplain]⟩
  unfold Builder.squeeze
  rw [hall]
  rfl

theorem outline_newline (ms : List Node) : outline (newline::ms) = outline ms := by
  have hblank : isBlankString newline = true := by decide
  simp [outline,pruned,hblank]

theorem outline_text {t : Text} (h : Text.allBlank t = false) (ms : List Node) :
    outline (.text .shown t::ms) = .text .shown (Text.trim t)::outline ms := by
  have hstay : isBlankString (.text .shown t) = false := h
  simp [outline,pruned,hstay,outlined]

/-- A string is shown as it is trimmed, so the line breaks around it do not matter. -/
theorem outline_between {t before behind : Text} (h : Text.allBlank t = false)
    (hbefore : before ∈ [[],['\n']]) (hbehind : behind ∈ [[],['\n']]) (ms : List Node) :
    outline (.text .shown (Builder.squeeze (before ++ t ++ behind))::ms) =
      .text .shown (Text.trim t)::outline ms := by
  have hblank : ∀ e : Text, e ∈ [[],['\n']] → ∀ c ∈ e, Text.isBlank c = true := by
    simp only [List.mem_cons,List.not_mem_nil,or_false]
    rintro e (rfl | rfl)
    · exact List.forall_mem_nil _
    · exact List.forall_mem_singleton.mpr rfl
  have hall : Text.allBlank (before ++ t ++ behind) = false := by
    unfold Text.allBlank at h ⊢
    simp [List.all_append,h]
  rw [squeeze_of_not_allBlank hall,outline_text hall,
    Text.trim_append_append (hblank _ hbefore) (hblank _ hbehind) t]

theorem outline_element (name : Text) (attrs : Dictionary Text) (children ms : List Node) :
    outline (.element name attrs children::ms) =
      outlined (.element name attrs children)::outline ms := rfl

/-- Items on separate lines, the last of which is ended too. -/
theorem pruned_rereadAll_items {around : List Text} {xs : List Node}
    (hbreaks : ∀ p : Text, (∀ c ∈ p, c = '\n') → pruned (flushed around (pending p)) = [])
    (hxs : ∀ x ∈ xs, x.plain? = none ∧ isBlankString (x.reread around) = false) {p : Text}
    (hp : ∀ c ∈ p, c = '\n') :
    pruned (Node.rereadAll around (pending p) (xs.intersperse newline ++ [newline])) =
      xs.map (Node.reread around) := by
  induction xs generalizing p with
  | nil =>
    have hlast : ∀ c ∈ p ++ ['\n'], c = '\n' := by simpa [or_imp,forall_and] using hp
    have hnone : (p ++ ['\n']).isEmpty = false := by simp
    have hread : Node.rereadAll around (pending p) [newline] =
        flushed around (pending (p ++ ['\n'])) := by
      have hheld : held ['\n'] (pending p) = pending (p ++ ['\n']) := by
        rw [held_pending p (by simp),pending,hnone]
        rfl
      rw [← hheld]
      rfl
    exact (congrArg pruned hread).trans (hbreaks _ hlast)
  | cons x xs ih =>
    obtain ⟨⟨hplain,hshown⟩,hrest⟩ := List.forall_mem_cons.mp hxs
    have hbehind : pruned (Node.rereadAll around none (linesBehind xs ++ [newline])) =
        xs.map (Node.reread around) := by
      cases xs with
      | nil => exact ih hrest (p:=[]) (by simp)
      | cons y ys => exact ih hrest (p:=['\n']) (by simp)
    have hread : Node.rereadAll around (pending p) (x::(linesBehind xs ++ [newline])) =
        flushed around (pending p) ++
          x.reread around::Node.rereadAll around none (linesBehind xs ++ [newline]) := by
      simp only [Node.rereadAll,hplain]
    have happend : ∀ ns ms : List Node, pruned (ns ++ ms) = pruned ns ++ pruned ms :=
      fun ns ms => List.filter_append ns ms
    have hfirst : ∀ ms, pruned (x.reread around::ms) = x.reread around::pruned ms := by
      simp [pruned,hshown]
    rw [intersperse_cons,List.cons_append,hread,happend,hbreaks p hp,List.nil_append,hfirst,hbehind,
      List.map_cons]

theorem alikeAll_items (around : List Text) {items : List Node}
    (h : ∀ n ∈ items, isItem n = true ∧ Sound around n ∧ Distinct n) :
    AlikeAll items ((Node.printedAll items).map (Node.reread around)) ∧
      ∀ x ∈ Node.printedAll items, x.plain? = none ∧ isBlankString (x.reread around) = false := by
  induction items with
  | nil => exact ⟨trivial,by simp [Node.printedAll]⟩
  | cons n ns ih =>
    obtain ⟨⟨hitem,hsound,hdistinct⟩,hns⟩ := List.forall_mem_cons.mp h
    obtain ⟨attrs,children,rfl⟩ := exists_of_isElement hitem
    obtain ⟨halike,hrest⟩ := ih hns
    obtain ⟨m,hm,hplain,hone⟩ := alike_reread hsound hdistinct rfl
    rw [Node.printedAll,hm,List.singleton_append,List.map_cons]
    refine ⟨⟨hone,halike⟩,List.forall_mem_cons.mpr ⟨⟨hplain,?_⟩,hrest⟩⟩
    rw [← (List.cons.inj hm).1]
    rfl

theorem pruned_eq_filter_isItem {children : List Node}
    (h : ∀ n ∈ children, isItem n = true ∨ isBlankString n = true) :
    pruned children = children.filter isItem := by
  refine List.filter_congr fun n hn => ?_
  rcases h n hn with hitem | hblank
  · obtain ⟨attrs,inside,rfl⟩ := exists_of_isElement hitem
    rw [hitem]
    rfl
  · cases n with
    | text kind t => rw [hblank]; rfl
    | element name attrs inside => cases hblank

theorem pruned_flushed_list {name : Text} (hlist : isList name = true) {p : Text}
    (hp : ∀ c ∈ p, c = '\n') : pruned (flushed [name] (pending p)) = [] := by
  cases p with
  | nil => rfl
  | cons c p =>
    have hall : (c::p).all Builder.isPlainBlank = true := by
      refine List.all_eq_true.mpr fun d hd => ?_
      rw [hp d hd]
      rfl
    have hbreak : '\n' ∈ c::p := by simp [hp c]
    have hsqueeze : Builder.squeeze (c::p) = ['\n'] := by
      rw [Builder.squeeze,if_pos hall,if_pos hbreak]
    have hfinished : flushed [name] (pending (c::p)) = [.text .shown (Builder.squeeze (c::p))] := by
      rcases eq_of_isList hlist with rfl | rfl <;> rfl
    rw [hfinished,hsqueeze]
    rfl

/-- What is read of a list that was put together from its items. -/
theorem alike_list {name : Text} {attrs : Dictionary Text} {children : List Node}
    (hlist : isList name = true) (hs : Sound [] (.element name attrs children))
    (hk : Keepable (.element name attrs children)) :
    Alike (outlined (.element name attrs children))
      (outlined ((standIn (.element name attrs children)).reread [])) := by
  obtain ⟨-,hattrs,-,-,hchildren⟩ := hs
  obtain ⟨⟨-,honly⟩,hitems⟩ := (if_pos hlist).mp hk
  obtain ⟨-,-,hvoid,-⟩ := isElementName_of_isList hlist
  have hall : ∀ n ∈ children.filter isItem, isItem n = true ∧ Sound [name] n ∧ Distinct n := by
    intro n hn
    obtain ⟨hmem,hitem⟩ := List.mem_filter.mp hn
    exact ⟨hitem,soundAll_iff.mp hchildren n hmem,(hitems n hmem hitem).2⟩
  obtain ⟨halike,hshown⟩ := alikeAll_items [name] hall
  have hbreaks : ∀ p : Text, (∀ c ∈ p, c = '\n') → pruned (flushed [name] (pending p)) = [] :=
    fun p hp => pruned_flushed_list hlist hp
  have hread := pruned_rereadAll_items hbreaks hshown (p:=['\n']) (by simp)
  have hpruned := pruned_eq_filter_isItem honly
  have hstand : (standIn (.element name attrs children)).reread [] = .element name attrs
      (Node.rereadAll [name] (pending ['\n'])
        ((Node.printedAll (children.filter isItem)).intersperse newline ++ [newline])) := by
    rw [standIn,if_pos hlist,Node.reread,hattrs.kept_readAttributes,hvoid]
    rfl
  rw [hstand,outlined,outlined,if_pos hlist,if_pos hlist,hread,hpruned]
  exact ⟨rfl,.refl _,halike⟩

theorem alike_standIn {name : Text} {attrs : Dictionary Text} {children : List Node}
    (hs : Sound [] (.element name attrs children)) (hk : Keepable (.element name attrs children)) :
    Alike (outlined (.element name attrs children))
      (outlined ((standIn (.element name attrs children)).reread [])) := by
  by_cases hlist : isList name = true
  · exact alike_list hlist hs hk
  · obtain ⟨-,hdistinct⟩ : Clear (.element name attrs children) ∧
        Distinct (.element name attrs children) := (if_neg hlist).mp hk
    obtain ⟨m,hm,-,halike⟩ := alike_reread hs hdistinct rfl
    obtain rfl : .element name (sortedAttrs attrs) (Node.printedAll children) = m :=
      (List.cons.inj hm).1
    have hsame : ∀ as ns, outlined (.element name as ns) = .element name as ns := fun as ns => by
      rw [outlined,if_neg hlist]
    rw [standIn,if_neg hlist,hsame]
    rw [Node.reread] at halike ⊢
    rwa [hsame]

theorem exists_standIn (name : Text) (attrs : Dictionary Text) (children : List Node) :
    ∃ as inside, standIn (.element name attrs children) = .element name as inside := by
  rw [standIn]
  split
  · exact ⟨_,_,rfl⟩
  · exact ⟨_,_,rfl⟩

/-- Lines that are read of the fragments of some nodes show these nodes. -/
theorem alikeAll_outline {xs ms : List Node} (h : Lined xs ms) {ps : List Node}
    (hxs : xs = ps.map standIn)
    (hps : ∀ n ∈ ps, Sound [] n ∧ Keepable n ∧ isBlankString n = false) :
    AlikeAll (ps.map outlined) (outline ms) := by
  induction h generalizing ps with
  | nil =>
    cases ps with
    | nil => trivial
    | cons p ps => cases hxs
  | line _ ih =>
    rw [outline_newline]
    exact ih hxs hps
  | text hbefore hbehind _ ih =>
    cases ps with
    | nil => cases hxs
    | cons p ps =>
      obtain ⟨hp,hrest⟩ := List.cons.inj hxs
      obtain ⟨⟨-,hkeep,hshown⟩,hmore⟩ := List.forall_mem_cons.mp hps
      cases p with
      | element name attrs children =>
        rw [standIn] at hp
        split at hp <;> cases hp
      | text kind u =>
        cases hp
        obtain ⟨rfl,-⟩ := hkeep
        rw [outline_between hshown hbefore hbehind]
        exact ⟨⟨rfl,rfl⟩,ih hrest hmore⟩
  | marked hx _ ih =>
    cases ps with
    | nil => cases hxs
    | cons p ps =>
      obtain ⟨rfl,hrest⟩ := List.cons.inj hxs
      obtain ⟨⟨hsound,hkeep,-⟩,hmore⟩ := List.forall_mem_cons.mp hps
      cases p with
      | text kind t => cases hx
      | element name attrs children =>
        have halike := alike_standIn hsound hkeep
        obtain ⟨as,inside,hstand⟩ := exists_standIn name attrs children
        rw [hstand,Node.reread] at halike
        rw [hstand,Node.reread,outline_element]
        exact ⟨halike,ih hrest hmore⟩

theorem plain?_standIn {n : Node} (h : Keepable n) : (standIn n).plain? = n.plain? := by
  cases n with
  | text kind t =>
    obtain ⟨rfl,-⟩ := h
    rfl
  | element name attrs children =>
    obtain ⟨as,inside,hstand⟩ := exists_standIn name attrs children
    rw [hstand]
    rfl

/-- What a node that is kept stands for is a piece of a page. -/
theorem isPiece_standIn {n : Node} (hs : Sound [] n) (hk : Keepable n) : IsPiece (standIn n) := by
  cases n with
  | text kind t =>
    obtain ⟨rfl,-⟩ := hk
    exact .inr ⟨t,hs.nonempty rfl,rfl⟩
  | element name attrs children =>
    obtain ⟨as,inside,hstand⟩ := exists_standIn name attrs children
    rw [hstand]
    exact .inl rfl

/-- Cut into blocks and put together again, a text shows the same nodes: elements, their attributes
and all that is in them, and the strings at the top. -/
theorem assemble_cut_keeps (html : Text) (ns : List Node) (hparse : Html.parse html = .ok ns)
    (hkeep : ∀ n ∈ ns, Keepable n) (hapart : (pruned ns).IsChain Apart) :
    ∃ bs fs ms, cut html = .ok bs ∧ assemble bs = .ok fs ∧
      Html.parse (Text.joinLines fs) = .ok ms ∧ AlikeAll (outline ns) (outline ms) := by
  have hsound := sound_of_parse hparse
  obtain ⟨fs,hassemble,hread⟩ := exists_fragments hsound hkeep 0
  have hmem : ∀ n ∈ pruned ns, n ∈ ns ∧ isBlankString n = false := fun n hn => by
    simpa [pruned] using List.mem_filter.mp hn
  have hsounds : ∀ n ∈ pruned ns, Sound [] n := fun n hn => hsound n (hmem n hn).1
  have hkeeps : ∀ n ∈ pruned ns, Keepable n := fun n hn => hkeep n (hmem n hn).1
  have hpieces : ∀ x ∈ (pruned ns).map standIn, IsPiece x :=
    List.forall_mem_map.mpr fun n hn => isPiece_standIn (hsounds n hn) (hkeeps n hn)
  have hchain : ((pruned ns).map standIn).IsChain Apart := by
    rw [List.isChain_map]
    refine List.IsChain.imp_of_mem_imp (fun m n hm hn h => ?_) hapart
    unfold Apart
    rwa [plain?_standIn (hkeeps m hm),plain?_standIn (hkeeps n hn)]
  have hlined := lined_rereadAll hpieces hchain (p:=[]) (by simp)
  refine ⟨_,fs,_,cut_eq hparse,hassemble,parse_of_reads (reads_joinLines hread),?_⟩
  exact alikeAll_outline hlined rfl fun n hn => ⟨hsounds n hn,hkeeps n hn,(hmem n hn).2⟩

/-- An element with a reference and a comment in it, a string, and a list. -/
theorem assemble_cut_keeps_mixed :
    let html := "<b id=x>&lt;<!--c--></b>t<ul><li>1</li>\n<li>2</li></ul>".toList
    let ns : List Node := [
      .element "b".toList [("id".toList,"x".toList)]
        [.text .shown "<".toList,.text .comment "c".toList],
      .text .shown "t".toList,
      .element "ul".toList [] [.element "li".toList [] [.text .shown "1".toList],
        .text .shown "\n".toList,.element "li".toList [] [.text .shown "2".toList]]]
    Html.parse html = .ok ns ∧ (∀ n ∈ ns, Keepable n) ∧ (pruned ns).IsChain Apart ∧
      ∃ bs fs ms, cut html = .ok bs ∧ assemble bs = .ok fs ∧
        Html.parse (Text.joinLines fs) = .ok ms ∧ AlikeAll (outline ns) (outline ms) := by
  intro html ns
  have hread : Html.parse "<b id=x>&lt;<!--c--></b>t<ul><li>1</li>\n<li>2</li></ul>".toList = .ok [
      .element "b".toList [("id".toList,"x".toList)]
        [.text .shown "<".toList,.text .comment "c".toList],
      .text .shown "t".toList,
      .element "ul".toList [] [.element "li".toList [] [.text .shown "1".toList],
        .text .shown "\n".toList,.element "li".toList [] [.text .shown "2".toList]]] := by rfl
  have hchain : (pruned ns).IsChain Apart := by decide
  have hitem : ∀ t : Text, Clear (.element "li".toList [] [.text .shown t]) ∧
      Distinct (.element "li".toList [] [.text .shown t]) := fun t =>
    ⟨⟨by decide,fun h => absurd h (by decide),⟨clear_text (by decide),trivial⟩⟩,.singleton _,
      ⟨by decide,by decide⟩,trivial⟩
  have hkeep : ∀ n ∈ ns, Keepable n := by
    simp only [ns,List.forall_mem_cons]
    refine ⟨?_,?_,?_,by simp⟩
    · rw [Keepable,if_neg (by decide)]
      refine ⟨⟨by decide,fun h => absurd h (by decide),?_⟩,?_⟩
      · exact ⟨clear_text (by decide),clear_text (by decide),trivial⟩
      · exact ⟨by decide,⟨by decide,by decide⟩,⟨by decide,by decide⟩,trivial⟩
    · exact ⟨rfl,forall_isPlain_iff.mpr (by decide)⟩
    · rw [Keepable,if_pos (by decide)]
      refine ⟨⟨⟨_,List.mem_cons_self,by decide⟩,?_⟩,?_⟩
      · decide
      · simp only [List.forall_mem_cons]
        exact ⟨fun _ => hitem _,fun h => absurd h (by decide),fun _ => hitem _,by simp⟩
  exact ⟨hread,hkeep,hchain,assemble_cut_keeps html ns hread hkeep hchain⟩

/-- A reference at the top is lost: what it stands for opens an element when it is read again. -/
theorem assemble_cut_opens :
    let html := "a &lt;b&gt; c".toList
    let ns : List Node := [.text .shown "a <b> c".toList]
    let ms : List Node := [.text .shown "a ".toList,.element "b".toList [] [.text .shown " c".toList]]
    Html.parse html = .ok ns ∧ cut html = .ok [⟨"a <b> c".toList,none⟩] ∧
      assemble [⟨"a <b> c".toList,none⟩] = .ok ["a <b> c".toList] ∧
      Html.parse (Text.joinLines ["a <b> c".toList]) = .ok ms ∧
      ¬AlikeAll (outline ns) (outline ms) := by
  intro html ns ms
  have hread : Html.parse "a &lt;b&gt; c".toList = .ok [.text .shown "a <b> c".toList] := by rfl
  have hagain : Html.parse "a <b> c".toList =
      .ok [.text .shown "a ".toList,.element "b".toList [] [.text .shown " c".toList]] := by rfl
  refine ⟨hread,?_,assemble_single (by rw [assemble]),hagain,?_⟩
  · exact cut_eq hread
  · rintro ⟨⟨-,h⟩,-⟩
    revert h
    decide

end Page
end Longform
