import Longform.Proofs.Outcome
import Longform.Proofs.Page.Recovery

/-! Parts of a page. Neighbouring blocks of a chapter are blocks of whole nodes and runs of items, one run
for each list, and they are put together part by part. -/
namespace Longform
namespace Page
open Html

/-- Neighbouring items of a list: where the list stands, and the ordinal of the first of them. -/
structure Run where
  tag : Text
  attrs : Dictionary Text
  position : Nat
  first : Nat
  items : List Node

/-- What stands on a page: markup of its own, or items that stay together in a list. -/
inductive Part
  | whole (html : Text)
  | run (r : Run)

/-- The run is one of items of a list at the top of some nodes. -/
structure Run.IsOf (r : Run) (ns : List Node) : Prop where
  list : ∃ children, ns[r.position]? = some (.element r.tag r.attrs children) ∧
    r.items <+: (children.filter isItem).drop r.first
  tag : isList r.tag = true
  nonempty : r.items ≠ []

def Run.blocks (r : Run) : List Block := runBlocks r.tag r.attrs r.position r.first r.items

def Part.blocks : Part → List Block
  | .whole html => [⟨html,none⟩]
  | .run r => r.blocks

/-- Where the list of a run stands. -/
def Part.list? : Part → Option Nat
  | .whole _ => none
  | .run r => some r.position

/-- Blocks divided into parts: the lists of the runs follow each other from a position on. -/
structure Divided (ns : List Node) (position : Nat) (bs : List Block) (parts : List Part) : Prop where
  blocks : bs = parts.flatMap Part.blocks
  runs : ∀ r, .run r ∈ parts → r.IsOf ns
  order : (parts.filterMap Part.list?).Pairwise (· < ·)
  behind : ∀ i ∈ parts.filterMap Part.list?, position ≤ i

section Divided
variable {ns : List Node} {position : Nat} {bs cs : List Block} {ps qs : List Part}

theorem divided_nil : Divided ns position [] [] :=
  ⟨rfl,fun _ hr => (nomatch hr),.nil,fun _ hi => (nomatch hi)⟩

theorem divided_whole (html : Text) : Divided ns position [⟨html,none⟩] [.whole html] := by
  refine ⟨rfl,fun r hr => ?_,.nil,fun _ hi => nomatch hi⟩
  cases List.mem_singleton.mp hr

theorem divided_run {r : Run} (h : r.IsOf ns) (hposition : r.position = position) :
    Divided ns position r.blocks [.run r] := by
  refine ⟨(List.append_nil _).symm,fun q hq => ?_,List.pairwise_singleton _ _,fun i hi => ?_⟩
  · cases List.mem_singleton.mp hq
    exact h
  · rw [List.mem_singleton.mp hi,hposition]

theorem Divided.append {next : Nat} (h : Divided ns position bs ps) (h' : Divided ns next cs qs)
    (hle : position ≤ next) (hbefore : ∀ i ∈ ps.filterMap Part.list?, i < next) :
    Divided ns position (bs ++ cs) (ps ++ qs) where
  blocks := by rw [List.flatMap_append,← h.blocks,← h'.blocks]
  runs r hr := (List.mem_append.mp hr).elim (h.runs r) (h'.runs r)
  order := by
    rw [List.filterMap_append,List.pairwise_append]
    exact ⟨h.order,h'.order,fun i hi j hj => Nat.lt_of_lt_of_le (hbefore i hi) (h'.behind j hj)⟩
  behind i hi := by
    rw [List.filterMap_append] at hi
    exact (List.mem_append.mp hi).elim (h.behind i) fun hi => Nat.le_trans hle (h'.behind i hi)

end Divided

/-! Some of the blocks of a text. -/

theorem drop_zipIdx {α : Type} (xs : List α) (i k : Nat) :
    (xs.zipIdx k).drop i = (xs.drop i).zipIdx (k + i) := by
  induction xs generalizing i k with
  | nil => simp
  | cons x xs ih =>
    cases i with
    | zero => rfl
    | succ i =>
      rw [List.zipIdx_cons,List.drop_succ_cons,ih,List.drop_succ_cons]
      congr 1
      omega

theorem take_zipIdx {α : Type} (xs : List α) (i k : Nat) :
    (xs.zipIdx k).take i = (xs.take i).zipIdx k := by
  induction xs generalizing i k with
  | nil => simp
  | cons x xs ih =>
    cases i with
    | zero => rfl
    | succ i => rw [List.zipIdx_cons,List.take_succ_cons,ih,List.take_succ_cons,List.zipIdx_cons]

theorem take_drop_runBlocks (tag : Text) (attrs : Dictionary Text) (position i j : Nat)
    (items : List Node) : ((runBlocks tag attrs position 0 items).drop i).take j =
      runBlocks tag attrs position i ((items.drop i).take j) := by
  rw [runBlocks,← List.map_drop,← List.map_take,drop_zipIdx,take_zipIdx,Nat.zero_add]
  rfl

/-- Neighbouring blocks of one node. -/
theorem exists_divided_node {ns : List Node} {n : Node} {position : Nat} (hn : ns[position]? = some n)
    (i j : Nat) : ∃ parts, Divided ns position (((nodeBlocks n position).drop i).take j) parts ∧
      ∀ k ∈ parts.filterMap Part.list?, k < position + 1 := by
  have hone : ∀ html, ∃ parts, Divided ns position ((([⟨html,none⟩] : List Block).drop i).take j) parts ∧
      ∀ k ∈ parts.filterMap Part.list?, k < position + 1 := by
    intro html
    rcases i with _ | i
    · rcases j with _ | j
      · exact ⟨[],divided_nil,fun _ hk => nomatch hk⟩
      · rw [List.drop_zero,List.take_of_length_le (by simp)]
        exact ⟨[.whole html],divided_whole html,fun _ hk => nomatch hk⟩
    · rw [List.drop_of_length_le (by simp),List.take_nil]
      exact ⟨[],divided_nil,fun _ hk => nomatch hk⟩
  cases n with
  | text kind t =>
    rw [nodeBlocks]
    split
    · rw [List.drop_nil,List.take_nil]
      exact ⟨[],divided_nil,fun _ hk => nomatch hk⟩
    · exact hone t
  | element name attrs children =>
    rw [nodeBlocks]
    split
    · rename_i hlist
      rw [itemBlocks_eq,take_drop_runBlocks]
      by_cases hitems : ((children.filter isItem).drop i).take j = []
      · rw [hitems]
        exact ⟨[],divided_nil,fun _ hk => nomatch hk⟩
      · have hrun : Run.IsOf ⟨name,attrs,position,i,((children.filter isItem).drop i).take j⟩ ns :=
          ⟨⟨children,hn,List.take_prefix _ _⟩,hlist,hitems⟩
        refine ⟨[.run _],divided_run hrun rfl,?_⟩
        intro k hk
        cases List.mem_singleton.mp hk
        exact Nat.lt_succ_self _
    · exact hone _

theorem exists_divided_from {ns : List Node} {position : Nat} {ms : List Node}
    (hms : ∀ k, ms[k]? = ns[position + k]?) (i j : Nat) :
    ∃ parts, Divided ns position (((blocksFrom position ms).drop i).take j) parts := by
  induction ms generalizing position i j with
  | nil =>
    rw [blocksFrom,List.drop_nil,List.take_nil]
    exact ⟨[],divided_nil⟩
  | cons n ms ih =>
    obtain ⟨ps,hps,hbefore⟩ := exists_divided_node (hms 0).symm i j
    have hrest : ∀ k, ms[k]? = ns[position + 1 + k]? := fun k => by
      rw [Nat.add_assoc,Nat.add_comm 1 k]
      exact hms (k + 1)
    obtain ⟨qs,hqs⟩ := ih hrest (i - (nodeBlocks n position).length)
      (j - ((nodeBlocks n position).drop i).length)
    rw [blocksFrom,List.drop_append,List.take_append]
    exact ⟨ps ++ qs,hps.append hqs (Nat.le_succ _) hbefore⟩

/-- Neighbouring blocks of a text are divided into parts. -/
theorem exists_divided {ns : List Node} {us : List Block} (h : us <:+: blocksFrom 0 ns) :
    ∃ parts, Divided ns 0 us parts := by
  obtain ⟨before,behind,hus⟩ := h
  have hpart : us = ((blocksFrom 0 ns).drop before.length).take us.length := by
    rw [← hus,List.append_assoc,List.drop_left,List.take_left]
  rw [hpart]
  exact exists_divided_from (fun k => by rw [Nat.zero_add]) _ _

/-! Putting parts together. -/

/-- The fragment of a part: its markup, or the list of its items. -/
def Part.IsFragment : Part → Text → Prop
  | .whole html,f => f = html
  | .run r,f => listMarkup ⟨r.tag,r.attrs,r.position,r.first⟩ (r.items.map (Node.markup false)) = .ok f

theorem forall₂_isFragment {ns : List Node} {position : Nat} {bs : List Block} {parts : List Part}
    {fs : List Text} (h : Divided ns position bs parts) (hfs : assemble bs = .ok fs) :
    List.Forall₂ Part.IsFragment parts fs := by
  obtain ⟨rfl,hruns,horder,-⟩ := h
  induction parts generalizing fs with
  | nil =>
    rw [List.flatMap_nil,assemble] at hfs
    cases hfs
    exact .nil
  | cons p ps ih =>
    have hmore : ∀ r, .run r ∈ ps → r.IsOf ns := fun r hr => hruns r (List.mem_cons_of_mem _ hr)
    cases p with
    | whole html =>
      have hcons : (Part.whole html::ps).flatMap Part.blocks = ⟨html,none⟩::ps.flatMap Part.blocks := rfl
      rw [hcons,assemble] at hfs
      cases hrest : assemble (ps.flatMap Part.blocks) with
      | error e => rw [hrest] at hfs; cases hfs
      | ok gs =>
        rw [hrest] at hfs
        cases hfs
        exact .cons rfl (ih hmore horder hrest)
    | run r =>
      have hcons : (Part.run r::ps).flatMap Part.blocks =
          runBlocks r.tag r.attrs r.position r.first r.items ++ ps.flatMap Part.blocks := rfl
      have hlists : (Part.run r::ps).filterMap Part.list? = r.position::ps.filterMap Part.list? := rfl
      rw [hlists,List.pairwise_cons] at horder
      have hother : ∀ b ∈ ps.flatMap Part.blocks, ∀ m, b.membership = some m →
          m.list ≠ (r.position : Int) := by
        intro b hb m hm
        obtain ⟨q,hq,hb⟩ := List.mem_flatMap.mp hb
        cases q with
        | whole html =>
          rw [List.mem_singleton.mp hb] at hm
          cases hm
        | run r' =>
          obtain ⟨m',hm',hlist⟩ := membership_of_mem_runBlocks hb
          cases hm'.symm.trans hm
          have hlt := horder.1 r'.position (List.mem_filterMap.mpr ⟨_,hq,rfl⟩)
          omega
      rw [hcons,assemble_run (hruns r List.mem_cons_self).nonempty hother] at hfs
      obtain ⟨t,ht,hfs⟩ := bind_eq_ok_iff.mp hfs
      obtain ⟨gs,hgs,hfs⟩ := bind_eq_ok_iff.mp hfs
      cases hfs
      exact .cons ht (ih hmore horder.2 hgs)

theorem assemble_runBlocks {tag : Text} {attrs : Dictionary Text} {position first : Nat}
    {items : List Node} {t : Text} (hitems : items ≠ [])
    (ht : listMarkup ⟨tag,attrs,position,first⟩ (items.map (Node.markup false)) = .ok t) :
    assemble (runBlocks tag attrs position first items) = .ok [t] := by
  rw [← List.append_nil (runBlocks tag attrs position first items),assemble_run hitems (by simp),ht,
    assemble]
  rfl

end Page
end Longform
