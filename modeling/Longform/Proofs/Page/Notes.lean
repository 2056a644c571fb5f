import Longform.Proofs.Footnote.Attachment
import Longform.Proofs.Footnote.Mention
import Longform.Proofs.Page.Pagination
import Longform.Proofs.Page.Recovery

/-! Notes of a page. The page lists the notes that its fragments refer to when they are read together,
and each fragment is linked when it is read alone: both are the same, when the strings at the top of
chapters need no references and stand apart. -/
namespace Longform
namespace Page
open Html Footnote

/-- A node at the top of a text whose blocks are read as they are. -/
def Severable : Node → Prop
  | .text _ t => ∀ c ∈ t, IsPlain c
  | .element name attrs children =>
    if isList name then ∀ n ∈ children, isItem n = true → Clear n
    else Clear (.element name attrs children)

/-- The nodes that stand in blocks of their own; a string does so as plain text. -/
def standing : Node → List Node
  | .text _ t => if Text.allBlank t then [] else [.text .shown t]
  | .element name attrs children =>
    if isList name then children.filter isItem else [.element name attrs children]

/-- A text whose blocks are read together as they are read alone. -/
def Severed (ns : List Node) : Prop :=
  (∀ n ∈ ns, Severable n) ∧ (ns.flatMap standing).IsChain Apart

/-! Blocks. -/

/-- The block is markup of a node. -/
structure Holds (b : Block) (x : Node) : Prop where
  reads : Reads b.html [x]
  piece : IsPiece x
  member : ∀ m, b.membership = some m →
    x.plain? = none ∧ isList m.tag = true ∧ IsKept m.tag m.attrs

theorem isAttributeName_start : IsAttributeName "start".toList := by decide

theorem exists_attributes {m : Membership} {items : List Text} {t : Text}
    (h : listMarkup m items = .ok t) : ∃ attrs, attributes m = .ok attrs := by
  obtain ⟨tag,htag,-⟩ := map_eq_ok_iff.mp h
  obtain ⟨attrs,hattrs,-⟩ := map_eq_ok_iff.mp htag
  exact ⟨attrs,hattrs⟩

theorem isAttributeName_of_attributes {m : Membership} {attrs : Dictionary Text}
    (hm : IsKept m.tag m.attrs) (h : attributes m = .ok attrs) :
    ∀ a ∈ attrs, IsAttributeName a.1 := by
  intro a ha
  have hentries : Dictionary.ofEntries m.attrs = m.attrs := Dictionary.ofEntries_of_nodup hm.nodup
  simp only [attributes,hentries] at h
  split at h
  · obtain ⟨t,-,rfl⟩ := map_eq_ok_iff.mp h
    rcases Dictionary.mem_set ha with hk | hmem
    · rw [hk]
      exact isAttributeName_start
    · exact hm.names a hmem
  · cases h
    exact hm.names a ha

/-- The blocks that are put into one list, and the others. -/
theorem exists_spanList (list : Int) (bs : List Block) : ∃ taken, bs = taken ++ (spanList list bs).2 ∧
    (spanList list bs).1 = taken.map (·.html) := by
  induction bs with
  | nil => exact ⟨[],rfl,rfl⟩
  | cons b bs ih =>
    obtain ⟨taken,hbs,hhtml⟩ := ih
    unfold spanList
    split
    · refine ⟨b::taken,?_,?_⟩
      · exact congrArg (b::·) hbs
      · exact congrArg (b.html::·) hhtml
    · exact ⟨[],rfl,rfl⟩

theorem exists_of_forall₂_append {R : Block → Node → Prop} {bs cs : List Block} {xs : List Node}
    (h : List.Forall₂ R (bs ++ cs) xs) :
    ∃ ys zs, xs = ys ++ zs ∧ List.Forall₂ R bs ys ∧ List.Forall₂ R cs zs :=
  ⟨_,_,(List.take_append_drop bs.length xs).symm,(List.forall₂_take_append xs bs cs h.flip).flip,
    (List.forall₂_drop_append xs bs cs h.flip).flip⟩

/-- Blocks are put together to fragments that are markup of one node each. A list stands where its
items stood, so texts that stood apart stand apart still. -/
theorem exists_reads_of_assemble {bs : List Block} {ys : List Node} {fs : List Text}
    (h : List.Forall₂ Holds bs ys) (hchain : ys.IsChain Apart) (hfs : assemble bs = .ok fs) :
    ∃ xs, List.Forall₂ (fun f x => Reads f [x]) fs xs ∧ (∀ x ∈ xs, IsPiece x) ∧ xs.IsChain Apart ∧
      xs.head?.bind Node.plain? = ys.head?.bind Node.plain? := by
  induction bs using assemble.induct generalizing ys fs with
  | case1 =>
    cases h
    rw [assemble] at hfs
    cases hfs
    exact ⟨[],.nil,by simp,.nil,rfl⟩
  | case2 b bs hb ih =>
    cases h with
    | @cons _ y _ ys hy hys =>
      rw [assemble,hb] at hfs
      cases hrest : assemble bs with
      | error e => rw [hrest] at hfs; cases hfs
      | ok gs =>
        rw [hrest] at hfs
        cases hfs
        obtain ⟨xs,hread,hpieces,hapart,hhead⟩ := ih hys hchain.tail hrest
        refine ⟨y::xs,.cons hy.reads hread,List.forall_mem_cons.mpr ⟨hy.piece,hpieces⟩,?_,rfl⟩
        refine List.isChain_cons.mpr ⟨fun x hx => ?_,hapart⟩
        have hplain : x.plain? = ys.head?.bind Node.plain? := by
          rw [← hhead,Option.mem_def.mp hx]
          rfl
        cases ys with
        | nil => exact .inr hplain
        | cons z zs => exact (List.isChain_cons_cons.mp hchain).1.imp id (hplain.trans ·)
  | case3 b bs m hb ih =>
    cases h with
    | @cons _ y _ ys hy hys =>
      rw [assemble,hb] at hfs
      obtain ⟨t,ht,hfs⟩ := bind_eq_ok_iff.mp hfs
      obtain ⟨gs,hgs,hfs⟩ := bind_eq_ok_iff.mp hfs
      cases hfs
      obtain ⟨hplain,htag,hkept⟩ := hy.member m hb
      obtain ⟨taken,hbs,hhtml⟩ := exists_spanList m.list bs
      rw [hbs] at hys
      obtain ⟨items,others,rfl,hitems,hothers⟩ := exists_of_forall₂_append hys
      have hsuffix : others <:+ y::(items ++ others) := ⟨y::items,by simp⟩
      obtain ⟨xs,hread,hpieces,hapart,-⟩ := ih hothers (hchain.suffix hsuffix) hgs
      have hmarkup : List.Forall₂ (fun f x => Reads f [x]) (b.html::taken.map (·.html)) (y::items) :=
        .cons hy.reads (List.forall₂_map_left_iff.mpr (hitems.imp fun _ _ h => h.reads))
      rw [hhtml] at ht
      obtain ⟨attrs,hattrs⟩ := exists_attributes ht
      have hlist := reads_listMarkup htag hattrs (isAttributeName_of_attributes hkept hattrs) hmarkup ht
      refine ⟨_::xs,.cons hlist hread,List.forall_mem_cons.mpr ⟨.inl rfl,hpieces⟩,?_,hplain.symm⟩
      exact List.isChain_cons.mpr ⟨fun x _ => .inl rfl,hapart⟩

/-! Blocks of nodes. -/

/-- The node that the block of a node is markup of. -/
def blockNode : Node → Node
  | .text kind t => .text kind t
  | .element name attrs children => .element name (sortedAttrs attrs) (Node.printedAll children)

theorem plain?_blockNode (n : Node) : (blockNode n).plain? = n.plain? := by
  cases n <;> rfl

theorem holds_items {name : Text} {attrs : Dictionary Text} {items : List Node}
    (hlist : isList name = true) (hkept : IsKept name attrs)
    (h : ∀ n ∈ items, isItem n = true ∧ Sound [name] n ∧ Clear n) (position : Int) (ordinal : Nat) :
    List.Forall₂ Holds ((items.zipIdx ordinal).map fun (item,i) =>
      ⟨item.markup false,some ⟨name,attrs,position,i⟩⟩) (items.map blockNode) := by
  induction items generalizing ordinal with
  | nil => exact .nil
  | cons n ns ih =>
    obtain ⟨⟨hitem,hsound,hclear⟩,hns⟩ := List.forall_mem_cons.mp h
    obtain ⟨as,children,rfl⟩ := exists_of_isElement hitem
    refine .cons ⟨reads_node (legible_of_sound hsound hclear),.inl rfl,fun m hm => ?_⟩ (ih hns _)
    cases hm
    exact ⟨rfl,hlist,hkept⟩

theorem holds_nodeBlocks {n : Node} (hs : Sound [] n) (hv : Severable n) (position : Nat) :
    List.Forall₂ Holds (nodeBlocks n position) ((standing n).map blockNode) := by
  cases n with
  | text kind t =>
    rw [nodeBlocks,standing]
    split
    · exact .nil
    · rename_i hblank
      have hne : t ≠ [] := by
        rintro rfl
        exact hblank rfl
      exact .cons ⟨reads_plain hv,.inr ⟨t,hne,rfl⟩,by simp⟩ .nil
  | element name attrs children =>
    rw [nodeBlocks,standing]
    split
    · rename_i hlist
      obtain ⟨-,hattrs,-,-,hchildren⟩ := hs
      refine holds_items hlist hattrs (fun n hn => ?_) position 0
      obtain ⟨hmem,hitem⟩ := List.mem_filter.mp hn
      exact ⟨hitem,soundAll_iff.mp hchildren n hmem,(if_pos hlist).mp hv n hmem hitem⟩
    · rename_i hlist
      have hclear : Clear (.element name attrs children) := (if_neg hlist).mp hv
      exact .cons ⟨reads_node (legible_of_sound hs hclear),.inl rfl,by simp⟩ .nil

theorem holds_blocksFrom {ns : List Node} (hs : ∀ n ∈ ns, Sound [] n) (hv : ∀ n ∈ ns, Severable n)
    (position : Nat) :
    List.Forall₂ Holds (blocksFrom position ns) ((ns.flatMap standing).map blockNode) := by
  induction ns generalizing position with
  | nil => exact .nil
  | cons n ns ih =>
    obtain ⟨hsound,hsounds⟩ := List.forall_mem_cons.mp hs
    obtain ⟨hsever,hsevers⟩ := List.forall_mem_cons.mp hv
    rw [blocksFrom,List.flatMap_cons,List.map_append]
    exact List.rel_append (holds_nodeBlocks hsound hsever position) (ih hsounds hsevers (position+1))

/-- Neighbouring blocks of a text are put together to fragments that are markup of one node each. -/
theorem exists_reads {html : Text} {ns : List Node} {bs us : List Block} {fs : List Text}
    (hparse : Html.parse html = .ok ns) (hs : ∀ n ∈ ns, Sound [] n) (hv : Severed ns)
    (hcut : cut html = .ok bs) (hus : us <:+: bs) (hfs : assemble us = .ok fs) :
    ∃ xs, List.Forall₂ (fun f x => Reads f [x]) fs xs ∧ (∀ x ∈ xs, IsPiece x) ∧ xs.IsChain Apart := by
  obtain rfl := Except.ok.inj ((cut_eq hparse).symm.trans hcut)
  have hholds := holds_blocksFrom hs hv.1 0
  have hchain : ((ns.flatMap standing).map blockNode).IsChain Apart := by
    rw [List.isChain_map]
    refine hv.2.imp fun m n h => ?_
    unfold Apart
    rwa [plain?_blockNode,plain?_blockNode]
  obtain ⟨before,behind,hblocks⟩ := hus
  rw [← hblocks] at hholds
  obtain ⟨xs,rest,hxs,hfront,-⟩ := exists_of_forall₂_append hholds
  obtain ⟨xs,ys,rfl,-,hys⟩ := exists_of_forall₂_append hfront
  have hpart : ys <:+: (ns.flatMap standing).map blockNode := ⟨xs,rest,hxs.symm⟩
  have hys' := List.IsChain.infix hchain hpart
  obtain ⟨zs,hread,hpieces,hapart,-⟩ := exists_reads_of_assemble hys hys' hfs
  exact ⟨zs,hread,hpieces,hapart⟩

/-! Citations. -/

section Cited
variable (known : Text → Bool)

/-- What a node cites when it is read alone. -/
def citedAlone (x : Node) : List Text := occurrencesAll known (Node.rereadAll [] none [x])

theorem occurrences_text (kind : TextKind) (t : Text) :
    occurrences known (.text kind t) = (mentions t).filter known := ids_pieces known t

theorem citedAlone_text (t : Text) : citedAlone known (.text .shown t) = (mentions t).filter known := by
  cases t with
  | nil => rfl
  | cons c r =>
    have hread : Node.rereadAll [] none [.text .shown (c::r)] =
        [.text .shown (Builder.squeeze (c::r))] := rfl
    rw [citedAlone,hread,occurrencesAll,occurrences_text,mentions_squeeze]
    exact List.append_nil _

theorem mentions_between {before behind : Text} (hbefore : before ∈ [[],['\n']])
    (hbehind : behind ∈ [[],['\n']]) (t : Text) : mentions (before ++ t ++ behind) = mentions t := by
  have hfront : mentions (before ++ t) = mentions t := by
    simp only [List.mem_cons,List.not_mem_nil,or_false] at hbefore
    rcases hbefore with rfl | rfl
    · rfl
    · exact mentions_newline_cons t
  simp only [List.mem_cons,List.not_mem_nil,or_false] at hbehind
  rcases hbehind with rfl | rfl
  · rw [List.append_nil,hfront]
  · rw [mentions_append_newline,hfront]

/-- Nodes on separate lines cite what they cite when each is read alone. -/
theorem occurrencesAll_of_lined {xs ms : List Node} (h : Lined xs ms) :
    occurrencesAll known ms = xs.flatMap (citedAlone known) := by
  induction h with
  | nil => rfl
  | line _ ih =>
    have hnone : mentions ['\n'] = [] := mentions_newline_cons []
    rw [newline,occurrencesAll,occurrences_text,hnone,ih]
    rfl
  | @text t before behind xs ms hbefore hbehind _ ih =>
    rw [occurrencesAll,occurrences_text,mentions_squeeze,mentions_between hbefore hbehind,
      List.flatMap_cons,citedAlone_text,ih]
  | @marked x xs ms hx _ ih =>
    have hread : Node.rereadAll [] none [x] = [x.reread []] := rereadAll_marked hx
    have halone : citedAlone known x = occurrences known (x.reread []) := by
      rw [citedAlone,hread]
      exact List.append_nil _
    rw [occurrencesAll,List.flatMap_cons,halone,ih]

end Cited

/-! Pages. -/

/-- The page is made of neighbouring blocks of the chapter. -/
def Made (s : Setting) (c : Chapter.Rendered) (p : Page) : Prop :=
  ∃ bs us index, cut c.html = .ok bs ∧ us <:+: bs ∧ make s c.title index us = .ok p

section Run
variable {s : Setting}

theorem ofChapter_made (s : Setting) (index : Nat) (c : Chapter.Rendered) :
    (ofChapter s index c).Ends (fun ps => ∀ p ∈ ps, Made s c p) fun _ => True := by
  unfold ofChapter
  cases hcut : cut c.html with
  | error e => exact .inr ⟨e,(Compile.gives_ofExcept rfl).bind_error,trivial⟩
  | ok bs =>
    refine .of_ok (Compile.gives_ofExcept rfl) ?_
    refine (fillFrom_ends (fitBlocks s.fits) (make s c.title) index [] bs).mono ?_ fun _ _ => trivial
    rintro ps ⟨pages,hf,hm⟩ p hp
    obtain ⟨⟨us,i⟩,hmem,hmake⟩ := exists_of_mem_mapM hm p hp
    have hpart := List.infix_of_mem_flatten (List.fst_mem_of_mem_zipIdx hmem)
    rw [hf.flatten] at hpart
    exact ⟨bs,us,i,hcut,hpart,hmake⟩

theorem paginateFrom_made (s : Setting) (index : Nat) (cs : List Chapter.Rendered) :
    (paginateFrom s index cs).Ends (fun ps => ∀ p ∈ ps, ∃ c ∈ cs, Made s c p) fun _ => True := by
  induction cs generalizing index with
  | nil => exact Compile.ends_pure (by simp)
  | cons c cs ih =>
    rw [paginateFrom]
    refine (ofChapter_made s index c).bind fun ps _ hps => ?_
    refine (ih (index + ps.length)).bind fun rest _ hrest => Compile.ends_pure fun p hp => ?_
    rcases List.mem_append.mp hp with hp | hp
    · exact ⟨c,List.mem_cons_self,hps p hp⟩
    · obtain ⟨d,hd,hmade⟩ := hrest p hp
      exact ⟨d,List.mem_cons_of_mem _ hd,hmade⟩

/-- Each page of a document is made of neighbouring blocks of one of its chapters. -/
theorem exists_made {cs : List Chapter.Rendered} {pages : List Page}
    (h : (paginate s cs).Gives (.ok pages)) : ∀ p ∈ pages, ∃ c ∈ cs, Made s c p := by
  rcases paginateFrom_made s 1 cs with ⟨ps,hgives,hps⟩ | ⟨e,hgives,-⟩
  · cases h.unique hgives
    exact hps
  · exact nomatch h.unique hgives

end Run

/-- A tree with its references to notes left open. -/
structure IsSketch (notes : Dictionary Text) (ns : List Node) (sketch : List Sketch) : Prop where
  ids : Sketch.idsAll sketch = cited notes.hasKey ns
  signs : Node.signsAll (Sketch.fillAll written sketch) = Node.signsAll ns

/-- What the fragments of a page cite, read one by one or together, what is linked in them and what is
listed below them are the same notes. -/
structure Agrees (s : Setting) (p : Page) (fragments : List Text) (trees : List (List Node))
    (whole : List Node) : Prop where
  assembled : assemble p.blocks = .ok fragments
  alone : List.Forall₂ (fun f ns => Html.parse f = .ok ns) fragments trees
  together : Html.parse (Text.joinLines fragments) = .ok whole
  collected : cited s.notes.hasKey whole = trees.flatMap (cited s.notes.hasKey)
  ids : p.noteIds = (cited s.notes.hasKey whole).eraseDups
  unlinked : p.noteIds = [] → p.fragments = fragments ∧ p.noteList = []
  /-- Every fragment with one link for each reference, and nothing else changed. -/
  linked : p.noteIds ≠ [] → ∃ sketches, List.Forall₂ (IsSketch s.notes) trees sketches ∧
    p.fragments = sketches.map (fun sketch =>
      Html.markup (Sketch.fillAll (link ((p.index : Int) - 1)) sketch)) ∧
    p.noteIds = (sketches.flatMap Sketch.idsAll).eraseDups
  listed : p.noteIds ≠ [] → ∃ items,
    List.Forall₂ (IsWritten s.renderNote s.notes ((p.index : Int) - 1)) p.noteIds items ∧
    p.noteList = "<div class=\"unit-footnotes\"><ol class=\"unit-footnotes-list\">".toList ++
      items.flatten ++ "</ol></div>".toList

/-- Fragments that are markup of one node each cite the same notes together and one by one. -/
theorem exists_trees {fs : List Text} {xs : List Node}
    (hread : List.Forall₂ (fun f x => Reads f [x]) fs xs) (hpieces : ∀ x ∈ xs, IsPiece x)
    (hchain : xs.IsChain Apart) :
    ∃ trees whole, List.Forall₂ (fun f ns => Html.parse f = .ok ns) fs trees ∧
      Html.parse (Text.joinLines fs) = .ok whole ∧
      ∀ known, cited known whole = trees.flatMap (cited known) := by
  refine ⟨xs.map fun x => Node.rereadAll [] none [x],_,?_,parse_of_reads (reads_joinLines hread),?_⟩
  · exact List.forall₂_map_right_iff.mpr (hread.imp fun _ _ h => parse_of_reads h)
  · intro known
    have hlined := lined_rereadAll hpieces hchain (p:=[]) (by simp)
    calc
      cited known (Node.rereadAll [] none (xs.intersperse newline)) =
          occurrencesAll known (Node.rereadAll [] none (xs.intersperse newline)) :=
        (occurrencesAll_eq_cited known _).symm
      _ = xs.flatMap (citedAlone known) := occurrencesAll_of_lined known hlined
      _ = (xs.map fun x => Node.rereadAll [] none [x]).flatMap (cited known) := by
        rw [List.flatMap_map]
        refine congrArg (fun f => List.flatMap f xs) ?_
        funext x
        exact occurrencesAll_eq_cited known _

theorem mapM_linked {notes : Dictionary Text} {unit : Int} {fs : List Text} {trees : List (List Node)}
    (h : List.Forall₂ (fun f ns => Html.parse f = .ok ns) fs trees) :
    fs.mapM (Footnote.linked notes unit) =
      .ok (trees.map fun ns => Html.markup (linkAll notes.hasKey unit ns)) := by
  induction h with
  | nil => rfl
  | cons hf _ ih =>
    rw [List.mapM_cons,ih,Footnote.linked,hf]
    rfl

section Annotate
variable {s : Setting} {index : Nat} {fs : List Text} {trees : List (List Node)} {whole : List Node}

theorem cited_of_notes_nil (hnotes : s.notes = []) (ns : List Node) : cited s.notes.hasKey ns = [] := by
  refine List.eq_nil_iff_forall_not_mem.mpr fun id hid => ?_
  have hkey := hasKey_of_mem_cited hid
  rw [hnotes] at hkey
  cases hkey

/-- What becomes of fragments that can be read, together and one by one. -/
theorem annotate_of_parse (halone : List.Forall₂ (fun f ns => Html.parse f = .ok ns) fs trees)
    (htogether : Html.parse (Text.joinLines fs) = .ok whole) :
    annotate s index fs =
      if cited s.notes.hasKey whole = [] then .ok (fs,[],[])
      else (Footnote.listMarkup s.renderNote s.notes ((index : Int) - 1)
        (cited s.notes.hasKey whole).eraseDups).map fun list =>
          (trees.map fun ns => Html.markup (linkAll s.notes.hasKey ((index : Int) - 1) ns),
            (cited s.notes.hasKey whole).eraseDups,list) := by
  unfold annotate
  by_cases hnotes : s.notes = []
  · rw [if_pos (cited_of_notes_nil hnotes whole),hnotes]
    rfl
  have hnone : s.notes.isEmpty = false := by simpa using hnotes
  simp only [hnone,Bool.false_eq_true,if_false,attach_of_parse htogether]
  by_cases hcited : cited s.notes.hasKey whole = []
  · rw [if_pos hcited,if_pos hcited]
    rfl
  · have hsome : (cited s.notes.hasKey whole).eraseDups.isEmpty = false := by
      simpa using eraseDups_ne_nil hcited
    rw [if_neg hcited,if_neg hcited]
    cases Footnote.listMarkup s.renderNote s.notes ((index : Int) - 1)
      (cited s.notes.hasKey whole).eraseDups with
    | error e => rfl
    | ok list =>
      simp only [Except.map,bind,Except.bind,hsome,Bool.false_eq_true,if_false,mapM_linked halone]

/-- The list of notes is written for all notes that are cited. -/
theorem exists_items_of_listMarkup {notes : Dictionary Text} {render : Text → Except Fault Text}
    {unit : Int} {ns : List Node} {list : Text} (hcited : cited notes.hasKey ns ≠ [])
    (h : Footnote.listMarkup render notes unit (cited notes.hasKey ns).eraseDups = .ok list) :
    ∃ items, List.Forall₂ (IsWritten render notes unit) (cited notes.hasKey ns).eraseDups items ∧
      list = "<div class=\"unit-footnotes\"><ol class=\"unit-footnotes-list\">".toList ++
        items.flatten ++ "</ol></div>".toList := by
  rcases listMarkup_cases hasKey_of_mem_eraseDups (eraseDups_ne_nil hcited) render unit with
    ⟨items,hitems,hlist⟩ | ⟨_,_,_,_,_,_,herror⟩
  · exact ⟨items,hitems,Except.ok.inj (h.symm.trans hlist)⟩
  · cases herror.symm.trans h

/-- A page of fragments that cite the same notes together and one by one. -/
theorem agrees_of_make {title : Text} {us : List Block} {p : Page} (h : make s title index us = .ok p)
    (hfs : assemble us = .ok fs)
    (halone : List.Forall₂ (fun f ns => Html.parse f = .ok ns) fs trees)
    (htogether : Html.parse (Text.joinLines fs) = .ok whole)
    (hsame : cited s.notes.hasKey whole = trees.flatMap (cited s.notes.hasKey)) :
    Agrees s p fs trees whole := by
  obtain ⟨fragments,hfragments,h⟩ := bind_eq_ok_iff.mp h
  obtain rfl := Except.ok.inj (hfragments.symm.trans hfs)
  obtain ⟨⟨linked,ids,list⟩,hannotate,h⟩ := bind_eq_ok_iff.mp h
  cases h
  rw [annotate_of_parse halone htogether] at hannotate
  by_cases hnone : cited s.notes.hasKey whole = []
  · rw [if_pos hnone] at hannotate
    cases hannotate
    exact ⟨hfs,halone,htogether,hsame,by rw [hnone]; rfl,fun _ => ⟨rfl,rfl⟩,fun h => absurd rfl h,
      fun h => absurd rfl h⟩
  · rw [if_neg hnone] at hannotate
    obtain ⟨list,hlist,hannotate⟩ := map_eq_ok_iff.mp hannotate
    cases hannotate
    refine ⟨hfs,halone,htogether,hsame,rfl,fun hids => absurd hids (eraseDups_ne_nil hnone),
      fun _ => ?_,fun _ => exists_items_of_listMarkup hnone hlist⟩
    refine ⟨trees.map (sketchAll s.notes.hasKey),?_,?_,?_⟩
    · refine List.forall₂_map_right_iff.mpr (List.forall₂_same.mpr fun ns _ => ⟨?_,?_⟩)
      · exact (idsAll_sketchAll _ ns).trans (occurrencesAll_eq_cited _ ns)
      · exact signsAll_sketchAll _ ns
    · rw [List.map_map]
      refine List.map_congr_left fun ns _ => ?_
      exact congrArg Html.markup (fillAll_sketchAll _ _ ns).symm
    · have hcited : (fun ns => Sketch.idsAll (sketchAll s.notes.hasKey ns)) = cited s.notes.hasKey :=
        funext fun ns => (idsAll_sketchAll _ ns).trans (occurrencesAll_eq_cited _ ns)
      rw [List.flatMap_map,hcited,← hsame]

/-- A page whose fragments can be read and cite something, and whose notes are all written. -/
theorem exists_make (title : Text) (index : Nat) {us : List Block} (hfs : assemble us = .ok fs)
    (halone : List.Forall₂ (fun f ns => Html.parse f = .ok ns) fs trees)
    (htogether : Html.parse (Text.joinLines fs) = .ok whole)
    (hcited : cited s.notes.hasKey whole ≠ []) (hrender : ∀ note, ∃ content, s.renderNote note = .ok content) :
    ∃ p, make s title index us = .ok p ∧ p.noteIds = (cited s.notes.hasKey whole).eraseDups ∧
      p.fragments = trees.map fun ns =>
        Html.markup (linkAll s.notes.hasKey ((index : Int) - 1) ns) := by
  rcases listMarkup_cases hasKey_of_mem_eraseDups (eraseDups_ne_nil hcited) s.renderNote
    ((index : Int) - 1) with ⟨items,-,hlist⟩ | ⟨_,_,note,_,_,he,_⟩
  · have hannotate : annotate s index fs = _ := annotate_of_parse halone htogether
    rw [if_neg hcited,hlist] at hannotate
    simp only [make,hfs,hannotate,bind,Except.bind]
    exact ⟨_,rfl,rfl,rfl⟩
  · obtain ⟨content,hcontent⟩ := hrender note
    cases hcontent.symm.trans he

end Annotate

/-- Every page that is made of chapters with plain strings at the top lists the notes that its
fragments are linked to: read together, they cite what each cites alone. -/
theorem paginate_notes_agree (s : Setting) (cs : List Chapter.Rendered)
    (hsevered : ∀ c ∈ cs, ∀ ns, Html.parse c.html = .ok ns → Severed ns) (pages : List Page)
    (h : (paginate s cs).Gives (.ok pages)) :
    ∀ p ∈ pages, ∃ fragments trees whole, Agrees s p fragments trees whole := by
  intro p hp
  obtain ⟨c,hc,bs,us,index,hcut,hus,hmake⟩ := exists_made h p hp
  obtain ⟨ns,hparse⟩ : ∃ ns, Html.parse c.html = .ok ns := by
    cases hparse : Html.parse c.html with
    | ok ns => exact ⟨ns,rfl⟩
    | error e =>
      rw [cut,hparse] at hcut
      cases hcut
  obtain ⟨fs,hfs,-⟩ := bind_eq_ok_iff.mp hmake
  obtain ⟨xs,hread,hpieces,hchain⟩ :=
    exists_reads hparse (sound_of_parse hparse) (hsevered c hc ns hparse) hcut hus hfs
  obtain ⟨trees,whole,halone,htogether,hsame⟩ := exists_trees hread hpieces hchain
  exact ⟨fs,trees,whole,agrees_of_make hmake hfs halone htogether (hsame _)⟩

/-- The pages of one chapter. -/
theorem gives_of_filling {s : Setting} {c : Chapter.Rendered} {bs : List Block}
    {pages : List (List Block)} {ps : List Page} (hcut : cut c.html = .ok bs)
    (hf : Filling (fitBlocks s.fits) [] bs pages)
    (hps : ((pages.zipIdx 1).mapM fun u => make s c.title u.2 u.1) = .ok ps) :
    (paginate s [c]).Gives (.ok ps) := by
  have hchapter : (ofChapter s 1 c).Gives (.ok ps) :=
    (Compile.gives_ofExcept hcut).bind_ok (hps ▸ hf.gives (make s c.title) 1)
  rw [← List.append_nil ps]
  exact hchapter.bind_ok ((Compile.gives_pure _).bind_ok (Compile.gives_pure _))

/-- Blocks of no list that fit together come onto one page. -/
theorem exists_single {s : Setting} {c : Chapter.Rendered} {bs : List Block}
    {trees : List (List Node)} {whole : List Node} (hcut : cut c.html = .ok bs)
    (hplain : bs ≠ [] ∧ ∀ b ∈ bs, b.membership = none)
    (hfits : ∀ fragments, fragments.length ≤ bs.length → s.fits fragments = .ok true)
    (halone : List.Forall₂ (fun f ns => Html.parse f = .ok ns) (bs.map (·.html)) trees)
    (htogether : Html.parse (Text.joinLines (bs.map (·.html))) = .ok whole)
    (hcited : cited s.notes.hasKey whole ≠ []) (hrender : ∀ note, ∃ content, s.renderNote note = .ok content) :
    ∃ p, (paginate s [c]).Gives (.ok [p]) ∧ p.blocks = bs ∧
      p.noteIds = (cited s.notes.hasKey whole).eraseDups ∧
      p.fragments = trees.map fun ns => Html.markup (linkAll s.notes.hasKey 0 ns) := by
  obtain ⟨hne,hnone⟩ := hplain
  obtain ⟨p,hmake,hids,hfragments⟩ :=
    exists_make c.title 1 (assemble_plain hnone) halone htogether hcited hrender
  have hfilling : ∀ page rest, page ++ rest = bs → Filling (fitBlocks s.fits) page rest [bs] := by
    intro page rest hall
    induction rest generalizing page with
    | nil =>
      rw [List.append_nil] at hall
      exact hall ▸ .last (hall ▸ hne)
    | cons b rest ih =>
      have hmore : (page ++ [b]) ++ rest = bs := by simpa using hall
      refine .add ?_ (ih _ hmore)
      have hmem : ∀ d ∈ page ++ [b], d ∈ bs := fun d hd => hmore ▸ List.mem_append_left _ hd
      have hlength : (page ++ [b]).length ≤ bs.length := by
        rw [← hmore]
        simp
      rw [fitBlocks,assemble_plain fun d hd => hnone d (hmem d hd)]
      exact hfits _ (by rwa [List.length_map])
  have hpages : ([bs].zipIdx 1).mapM (fun u => make s c.title u.2 u.1) = .ok [p] := by
    simp only [List.zipIdx_cons,List.zipIdx_nil,List.mapM_cons,List.mapM_nil,hmake]
    rfl
  exact ⟨p,gives_of_filling hcut (hfilling [] bs rfl) hpages,(make_ok hmake).2.1,hids,hfragments⟩

theorem fitsIn_length {n : Nat} {fragments : List Text} (h : fragments.length ≤ n) :
    fitsIn (fun fragments => .ok fragments.length) n fragments = .ok true :=
  congrArg Except.ok (decide_eq_true h)

/-- A page with references in an element and in a string. -/
theorem paginate_notes_agree_two :
    let s : Setting := ⟨"D".toList,fitsIn (fun fragments => .ok fragments.length) 2,
      [("1".toList,"n".toList),("2".toList,"m".toList)],.ok⟩
    let cs : List Chapter.Rendered := [⟨"T".toList,"<p>a[^2]</p>b[^1]".toList⟩]
    (∀ c ∈ cs, ∀ ns, Html.parse c.html = .ok ns → Severed ns) ∧
      ∃ p, (paginate s cs).Gives (.ok [p]) ∧ p.noteIds = ["2".toList,"1".toList] ∧
        ∃ fragments trees whole, Agrees s p fragments trees whole := by
  intro s cs
  have hread : Html.parse "<p>a[^2]</p>b[^1]".toList =
      .ok [.element "p".toList [] [.text .shown "a[^2]".toList],.text .shown "b[^1]".toList] := by rfl
  have hsevered : ∀ c ∈ cs, ∀ ns, Html.parse c.html = .ok ns → Severed ns := by
    intro c hc ns hns
    obtain rfl := List.mem_singleton.mp hc
    cases hread.symm.trans hns
    refine ⟨?_,by decide⟩
    simp only [List.forall_mem_cons]
    refine ⟨?_,?_,by simp⟩
    · rw [Severable,if_neg (by decide)]
      exact ⟨by decide,fun h => absurd h (by decide),⟨clear_text (by decide),trivial⟩⟩
    · rw [Severable]
      exact forall_isPlain_iff.mpr (by decide)
  have hfirst : Html.parse "<p>a[^2]</p>".toList =
      .ok [.element "p".toList [] [.text .shown "a[^2]".toList]] := by rfl
  have hsecond : Html.parse "b[^1]".toList = .ok [.text .shown "b[^1]".toList] := by rfl
  have hwhole : Html.parse "<p>a[^2]</p>\nb[^1]".toList = .ok [
      .element "p".toList [] [.text .shown "a[^2]".toList],.text .shown "\nb[^1]".toList] := by rfl
  have hcut : cut "<p>a[^2]</p>b[^1]".toList =
      .ok [⟨"<p>a[^2]</p>".toList,none⟩,⟨"b[^1]".toList,none⟩] := cut_eq hread
  obtain ⟨p,hgives,-,hids,-⟩ := exists_single (s:=s) (c:=⟨"T".toList,_⟩) hcut (by decide)
    (fun _ => fitsIn_length) (.cons hfirst (.cons hsecond .nil)) hwhole (by decide) fun note => ⟨note,rfl⟩
  refine ⟨hsevered,p,hgives,hids.trans (by decide),?_⟩
  exact paginate_notes_agree s cs hsevered [p] hgives p List.mem_cons_self

/-- A comment at the top is a block of bare text. Read with the block below it, it makes that code; the
reference there is linked, as its block is read alone, but has no note. -/
theorem paginate_notes_differ :
    let s : Setting := ⟨"D".toList,fitsIn (fun fragments => .ok fragments.length) 3,
      [("1".toList,"n".toList),("2".toList,"m".toList)],.ok⟩
    let c : Chapter.Rendered := ⟨"T".toList,"<p>a[^2]</p><!-- <code> --><p>b[^1]</p>".toList⟩
    ∃ p, (paginate s [c]).Gives (.ok [p]) ∧ p.noteIds = ["2".toList] ∧
      Html.markup [.element "p".toList [] [.text .shown "b".toList,link 0 "1".toList]] ∈ p.fragments ∧
      ¬∃ fragments trees whole, Agrees s p fragments trees whole := by
  intro s c
  have hread : Html.parse "<p>a[^2]</p><!-- <code> --><p>b[^1]</p>".toList = .ok [
      .element "p".toList [] [.text .shown "a[^2]".toList],.text .comment " <code> ".toList,
      .element "p".toList [] [.text .shown "b[^1]".toList]] := by rfl
  have hfirst : Html.parse "<p>a[^2]</p>".toList =
      .ok [.element "p".toList [] [.text .shown "a[^2]".toList]] := by rfl
  have hsecond : Html.parse " <code> ".toList =
      .ok [.text .shown " ".toList,.element "code".toList [] [.text .shown " ".toList]] := by rfl
  have hthird : Html.parse "<p>b[^1]</p>".toList =
      .ok [.element "p".toList [] [.text .shown "b[^1]".toList]] := by rfl
  have hwhole : Html.parse "<p>a[^2]</p>\n <code> \n<p>b[^1]</p>".toList = .ok [
      .element "p".toList [] [.text .shown "a[^2]".toList],.text .shown "\n".toList,
      .element "code".toList [] [.text .shown "\n".toList,
        .element "p".toList [] [.text .shown "b[^1]".toList]]] := by rfl
  have hcut : cut "<p>a[^2]</p><!-- <code> --><p>b[^1]</p>".toList = .ok [
      ⟨"<p>a[^2]</p>".toList,none⟩,⟨" <code> ".toList,none⟩,⟨"<p>b[^1]</p>".toList,none⟩] :=
    cut_eq hread
  have halone : List.Forall₂ (fun f ns => Html.parse f = .ok ns) _ _ :=
    .cons hfirst (.cons hsecond (.cons hthird .nil))
  obtain ⟨p,hgives,hblocks,hids,hfragments⟩ := exists_single (s:=s) (c:=c) hcut (by decide)
    (fun _ => fitsIn_length) halone hwhole (by decide) fun note => ⟨note,rfl⟩
  refine ⟨p,hgives,hids.trans (by decide),?_,?_⟩
  · rw [hfragments]
    exact List.mem_map.mpr ⟨[.element "p".toList [] [.text .shown "b[^1]".toList]],by simp,rfl⟩
  · rintro ⟨fragments,trees,whole,h⟩
    have hassemble := h.assembled
    rw [hblocks,assemble_plain (by decide)] at hassemble
    cases hassemble
    obtain rfl := Except.ok.inj (hwhole.symm.trans h.together)
    have hunique : Relator.RightUnique fun f ns => Html.parse f = .ok ns :=
      fun _ _ _ hns hms => Except.ok.inj (hns.symm.trans hms)
    obtain rfl := hunique.forall₂ halone h.alone
    exact absurd h.collected (by decide)

end Page
end Longform
