import Mathlib.Data.List.Forall2
import Longform.Proofs.Dictionary
import Longform.Proofs.Network.Reference
import Longform.Proofs.Text.Lines

/-! The attributes of nodes. The pairs in the suffixes of references are assignments, read from left to
right over all lines; what they leave is kept through every prefix of the reading, so the last value of a
key wins and lists of lines may be merged. -/
namespace Longform
namespace Network

/-- A pair `key:value`, neither of them blank. The value is all that stands behind the first colon. -/
structure IsPair (pair key value : Text) : Prop where
  exists_sides : ∃ k v, pair = k ++ ':' :: v ∧ ':' ∉ k ∧ Text.trim k = key ∧ Text.trim v = value
  key_ne_nil : key ≠ []
  value_ne_nil : value ≠ []

theorem attribute?_eq_some_iff {pair key value : Text} :
    attribute? pair = some (key,value) ↔ IsPair pair key value := by
  constructor
  · intro h
    unfold attribute? at h
    split at h
    · cases h
    · rename_i k v hcut
      obtain ⟨hpair,hcolon⟩ := Text.eq_append_of_cutAt hcut
      simp only at h
      split at h
      · cases h
      · rename_i hne
        cases h
        simp only [Bool.or_eq_true,List.isEmpty_iff,not_or] at hne
        exact ⟨⟨k,v,hpair,hcolon,rfl,rfl⟩,hne.1,hne.2⟩
  · rintro ⟨⟨k,v,rfl,hcolon,rfl,rfl⟩,hkey,hvalue⟩
    simp [attribute?,Text.cutAt_append hcolon,hkey,hvalue]

/-- A value that a key of a node is set to. -/
structure Assignment where
  node : Text
  key : Text
  value : Text

def Assignment.entry (a : Assignment) : Text × Text := (a.key,a.value)

/-- The pieces of a suffix between its semicolons. -/
def Reference.pieces (x : Reference) : List Text := (x.suffix.map (·.splitOn ';')).getD []

/-- The pieces of some references in reading order, each with the node that it is written for. -/
def nodePieces (xs : List Reference) : List (Text × Text) :=
  xs.flatMap fun x => x.pieces.map fun p => (Text.trim x.name,p)

/-- The assignments of pieces, in order. A piece that is no pair is passed over. -/
inductive Assigned : List (Text × Text) → List Assignment → Prop
  | nil : Assigned [] []
  | pair {node piece key value : Text} {ps : List (Text × Text)} {as : List Assignment}
      (isPair : IsPair piece key value) (rest : Assigned ps as) :
      Assigned ((node,piece)::ps) (⟨node,key,value⟩::as)
  | skip {node piece : Text} {ps : List (Text × Text)} {as : List Assignment}
      (noPair : ∀ key value, ¬IsPair piece key value) (rest : Assigned ps as) :
      Assigned ((node,piece)::ps) as

/-- The assignments of some lines in reading order. -/
def Assigns (lines : List Text) (as : List Assignment) : Prop :=
  ∃ xss, List.Forall₂ Refers lines xss ∧ Assigned (nodePieces xss.flatten) as

/-- A reference to a node in a line carries a pair. -/
def Carries (line node key value : Text) : Prop :=
  ∃ xs, Refers line xs ∧ ∃ x ∈ xs, Text.trim x.name = node ∧ ∃ p ∈ x.pieces, IsPair p key value

/-- The attributes found for a node. -/
def attributesOf (found : Dictionary (Dictionary Text)) (node : Text) : Dictionary Text :=
  (found.find? node).getD []

/-- Attributes as assignments leave them: nodes and the keys of each in the order of their first
assignments, with the values of their last ones. -/
structure Merged (as : List Assignment) (found : Dictionary (Dictionary Text)) : Prop where
  nodes : found.keys = (as.map (·.node)).eraseDups
  keys : ∀ n, (attributesOf found n).keys = ((as.filter (·.node = n)).map (·.key)).eraseDups
  values : ∀ n k, (attributesOf found n).find? k =
    ((as.filter fun a => a.node = n ∧ a.key = k).getLast?).map (·.value)

/-- The attributes of both, merged node by node. -/
def mergeNodes (d e : Dictionary (Dictionary Text)) : Dictionary (Dictionary Text) :=
  (Dictionary.merge d e).keys.map fun n => (n,(attributesOf d n).merge (attributesOf e n))

/-! One assignment after the other. -/

section Assigning

variable {d e : Dictionary (Dictionary Text)} {as : List Assignment}

def assign (found : Dictionary (Dictionary Text)) (a : Assignment) : Dictionary (Dictionary Text) :=
  found.alter a.node fun old => (old.getD []).set a.key a.value

theorem attributesOf_assign (d : Dictionary (Dictionary Text)) (a : Assignment) (n : Text) :
    attributesOf (assign d a) n =
      if a.node = n then (attributesOf d n).set a.key a.value else attributesOf d n := by
  rw [attributesOf,assign,Dictionary.find?_alter]
  by_cases h : n = a.node
  · subst h
    simp [attributesOf]
  · simp [attributesOf,h,Ne.symm h]

/-- A node has the entries of its own assignments, set one after the other. -/
theorem attributesOf_foldl_assign (d : Dictionary (Dictionary Text)) (as : List Assignment) (n : Text) :
    attributesOf (as.foldl assign d) n =
      (attributesOf d n).merge ((as.filter (·.node = n)).map Assignment.entry) := by
  induction as generalizing d with
  | nil => rfl
  | cons a as ih =>
    rw [List.foldl_cons,ih,attributesOf_assign]
    by_cases h : a.node = n
    · simp [h,Assignment.entry]
    · simp [h]

theorem keys_foldl_assign (ns : List Text) (h : d.keys = ns.eraseDups) :
    (as.foldl assign d).keys = (ns ++ as.map (·.node)).eraseDups := by
  induction as generalizing d ns with
  | nil => simpa using h
  | cons a as ih =>
    have hstep : (assign d a).keys = (ns ++ [a.node]).eraseDups := Dictionary.keys_set_of_eraseDups _ h
    rw [List.foldl_cons,ih _ hstep]
    simp

theorem nodup_keys_foldl_assign (h : d.keys.Nodup) : (as.foldl assign d).keys.Nodup := by
  induction as generalizing d with
  | nil => exact h
  | cons a as ih => exact ih (Dictionary.nodup_keys_set _ h)

/-- What assignments leave where there was nothing. -/
def assignAll (as : List Assignment) : Dictionary (Dictionary Text) := as.foldl assign []

theorem attributesOf_assignAll (as : List Assignment) (n : Text) : attributesOf (assignAll as) n =
    Dictionary.ofEntries ((as.filter (·.node = n)).map Assignment.entry) :=
  attributesOf_foldl_assign [] as n

theorem nodup_keys_assignAll (as : List Assignment) : (assignAll as).keys.Nodup :=
  nodup_keys_foldl_assign List.nodup_nil

theorem merged_assignAll (as : List Assignment) : Merged as (assignAll as) := by
  refine ⟨keys_foldl_assign [] rfl,fun n => ?_,fun n k => ?_⟩
  · rw [attributesOf_assignAll,Dictionary.keys_ofEntries,Dictionary.keys,List.map_map]
    rfl
  · have hfilter : (as.filter fun a => a.node = n ∧ a.key = k) =
        (as.filter (·.node = n)).filter (·.key = k) := by
      rw [List.filter_filter]
      exact List.filter_congr fun a _ => by rw [Bool.decide_and,Bool.and_comm]
    rw [attributesOf_assignAll,Dictionary.find?_ofEntries,hfilter,List.filter_map,List.getLast?_map,
      Option.map_map]
    rfl

/-- Later assignments add the nodes that they would find alone. -/
theorem keys_foldl_assign_eq_merge (d : Dictionary (Dictionary Text)) (as : List Assignment) :
    (as.foldl assign d).keys = (d.merge (assignAll as)).keys := by
  induction as using List.reverseRecOn with
  | nil => rfl
  | append_singleton as a ih =>
    have hall : assignAll (as ++ [a]) = assign (assignAll as) a := List.foldl_concat ..
    rw [List.foldl_concat,hall,assign,Dictionary.alter,assign,Dictionary.alter,
      Dictionary.merge_set _ (nodup_keys_assignAll as)]
    exact Dictionary.keys_set_congr _ _ ih

theorem keys_mergeNodes (d e : Dictionary (Dictionary Text)) :
    (mergeNodes d e).keys = (d.merge e).keys := by
  rw [mergeNodes,Dictionary.keys,List.map_map]
  exact List.map_id _

theorem attributesOf_mergeNodes (he : e.keys.Nodup) (n : Text) :
    attributesOf (mergeNodes d e) n = (attributesOf d n).merge (attributesOf e n) := by
  rw [attributesOf,mergeNodes,Dictionary.find?_map_keys]
  split
  · rfl
  · -- a node of neither has nothing on both sides
    rename_i hn
    have hnone := Dictionary.find?_of_not_mem hn
    rw [Dictionary.find?_merge he,Option.or_eq_none_iff] at hnone
    simp [attributesOf,hnone.1,hnone.2]

/-- Assignments that come later may be made alone and merged into those made before. -/
theorem foldl_assign_eq_mergeNodes (hd : d.keys.Nodup) (as : List Assignment) :
    as.foldl assign d = mergeNodes d (assignAll as) := by
  refine Dictionary.eq_of_keys_eq (v := []) (nodup_keys_foldl_assign hd) ?_ fun n => ?_
  · rw [keys_foldl_assign_eq_merge,keys_mergeNodes]
  · show attributesOf _ n = attributesOf _ n
    rw [attributesOf_mergeNodes (nodup_keys_assignAll as),attributesOf_foldl_assign,
      attributesOf_assignAll,Dictionary.merge_ofEntries]

end Assigning

/-! Reading references and their suffixes. -/

section Reading

variable {ps : List (Text × Text)} {as : List Assignment}

/-- What a piece of a suffix sets. -/
def assignment? (p : Text × Text) : Option Assignment :=
  (attribute? p.2).map fun e => ⟨p.1,e.1,e.2⟩

theorem assigned_iff : Assigned ps as ↔ as = ps.filterMap assignment? := by
  constructor
  · intro h
    induction h with
    | nil => rfl
    | pair pair rest ih =>
      rw [List.filterMap_cons_some (by rw [assignment?,attribute?_eq_some_iff.mpr pair]; rfl),ih]
    | @skip node piece ps as none rest ih =>
      have hnone : attribute? piece = .none := Option.eq_none_iff_forall_ne_some.mpr
        fun e he => none e.1 e.2 (attribute?_eq_some_iff.mp he)
      rw [List.filterMap_cons_none (by rw [assignment?,hnone]; rfl),ih]
  · rintro rfl
    induction ps with
    | nil => exact .nil
    | cons p ps ih =>
      cases h : attribute? p.2 with
      | none =>
        rw [List.filterMap_cons_none (by rw [assignment?,h]; rfl)]
        refine .skip (fun key value hpair => ?_) ih
        rw [attribute?_eq_some_iff.mpr hpair] at h
        cases h
      | some e =>
        rw [List.filterMap_cons_some (by rw [assignment?,h]; rfl)]
        exact .pair (attribute?_eq_some_iff.mp h) ih

/-- The assignments that lines make. -/
def assignments (lines : List Text) : List Assignment :=
  (nodePieces ((lines.flatMap references).map (·.2))).filterMap assignment?

theorem assigns_iff {lines : List Text} : Assigns lines as ↔ as = assignments lines := by
  have hrefers : Refers = fun l xs => (references l).map (·.2) = xs :=
    funext fun _ => funext fun _ => propext refers_iff
  have hall : ∀ xss, List.Forall₂ Refers lines xss ↔
      (lines.map fun l => (references l).map (·.2)) = xss := fun xss => by
    rw [hrefers,← List.forall₂_map_left_iff,List.forall₂_eq_eq_eq]
  simp only [Assigns,hall,exists_eq_left',assigned_iff]
  rw [assignments,List.map_flatMap,List.flatMap_def]

theorem Reference.attributes_eq (x : Reference) :
    x.attributes = Dictionary.ofEntries (x.pieces.filterMap attribute?) := by
  unfold Reference.attributes Reference.pieces
  cases x.suffix with
  | none => rfl
  | some raw => simp [Text.splitAt_eq_splitOn]

/-- The entries of one reference are set in their node together. -/
theorem foldl_assign_map {es : List (Text × Text)} (hne : es ≠ []) (d : Dictionary (Dictionary Text))
    (n : Text) : (es.map fun e => (⟨n,e.1,e.2⟩ : Assignment)).foldl assign d =
      d.alter n fun old => Dictionary.merge (old.getD []) es := by
  induction es generalizing d with
  | nil => exact absurd rfl hne
  | cons e es ih =>
    rw [List.map_cons,List.foldl_cons]
    by_cases hes : es = []
    · subst hes
      rfl
    · rw [ih hes,assign,Dictionary.alter_alter]
      rfl

theorem addAttributes_eq (d : Dictionary (Dictionary Text)) (x : Reference) :
    addAttributes d x = ((nodePieces [x]).filterMap assignment?).foldl assign d := by
  have hentries : (nodePieces [x]).filterMap assignment? =
      (x.pieces.filterMap attribute?).map fun e => ⟨Text.trim x.name,e.1,e.2⟩ := by
    simp [nodePieces,List.filterMap_map,List.map_filterMap,assignment?,Function.comp_def]
  rw [addAttributes,hentries,x.attributes_eq]
  by_cases hes : x.pieces.filterMap attribute? = []
  · -- without a pair the node is not even named
    rw [hes]
    rfl
  · rw [foldl_assign_map hes,if_neg (by rwa [List.isEmpty_iff,Dictionary.ofEntries_eq_nil_iff])]
    simp only [Dictionary.merge_ofEntries]

/-- References are read pair by pair. -/
theorem foldl_addAttributes (d : Dictionary (Dictionary Text)) (xs : List Reference) :
    xs.foldl addAttributes d = ((nodePieces xs).filterMap assignment?).foldl assign d := by
  induction xs generalizing d with
  | nil => rfl
  | cons x xs ih =>
    have hsplit : nodePieces (x::xs) = nodePieces [x] ++ nodePieces xs := by simp [nodePieces]
    rw [List.foldl_cons,ih,addAttributes_eq,hsplit,List.filterMap_append,List.foldl_append]

theorem nodeAttributes_eq (lines : List Text) :
    nodeAttributes lines = assignAll (assignments lines) := foldl_addAttributes [] _

theorem mem_assignments {lines : List Text} {a : Assignment} :
    a ∈ assignments lines ↔ ∃ l ∈ lines, Carries l a.node a.key a.value := by
  simp only [assignments,nodePieces,List.mem_filterMap,List.mem_flatMap,List.mem_map,assignment?,
    Option.map_eq_some_iff,Carries,refers_iff,exists_eq_left']
  constructor
  · rintro ⟨_,⟨x,⟨r,⟨l,hl,hr⟩,rfl⟩,p,hp,rfl⟩,⟨k,v⟩,hpair,rfl⟩
    exact ⟨l,hl,r.2,⟨r,hr,rfl⟩,rfl,p,hp,attribute?_eq_some_iff.mp hpair⟩
  · rintro ⟨l,hl,x,⟨r,hr,rfl⟩,hnode,p,hp,hpair⟩
    exact ⟨(a.node,p),⟨r.2,⟨r,⟨l,hl,hr⟩,rfl⟩,p,hp,by rw [hnode]⟩,(a.key,a.value),
      attribute?_eq_some_iff.mpr hpair,rfl⟩

theorem mem_keys_nodeAttributes (lines : List Text) (n : Text) :
    n ∈ (nodeAttributes lines).keys ↔ ∃ l ∈ lines, ∃ k v, Carries l n k v := by
  rw [nodeAttributes_eq,(merged_assignAll _).nodes,List.mem_eraseDups,List.mem_map]
  constructor
  · rintro ⟨a,ha,rfl⟩
    obtain ⟨l,hl,hcarries⟩ := mem_assignments.mp ha
    exact ⟨l,hl,a.key,a.value,hcarries⟩
  · rintro ⟨l,hl,k,v,hcarries⟩
    exact ⟨⟨n,k,v⟩,mem_assignments.mpr ⟨l,hl,hcarries⟩,rfl⟩

theorem assignments_append (xs ys : List Text) :
    assignments (xs ++ ys) = assignments xs ++ assignments ys := by
  simp [assignments,nodePieces]

theorem nodeAttributes_append (xs ys : List Text) :
    nodeAttributes (xs ++ ys) = mergeNodes (nodeAttributes xs) (nodeAttributes ys) := by
  calc
    nodeAttributes (xs ++ ys) = (assignments ys).foldl assign (assignAll (assignments xs)) := by
      rw [nodeAttributes_eq,assignments_append,assignAll,List.foldl_append]
      rfl
    _ = mergeNodes (assignAll (assignments xs)) (assignAll (assignments ys)) :=
      foldl_assign_eq_mergeNodes (nodup_keys_assignAll _) _
    _ = mergeNodes (nodeAttributes xs) (nodeAttributes ys) := by
      rw [nodeAttributes_eq,nodeAttributes_eq]

end Reading

/-- A line by its references, each with the text in front of it, and the text behind the last one. -/
structure Layout where
  cited : List (Text × Reference)
  last : Text

def Layout.text (l : Layout) : Text := l.cited.flatMap (fun x => x.1 ++ x.2.text) ++ l.last

def Layout.references (l : Layout) : List Reference := l.cited.map (·.2)

/-- No parenthesis in the text around the references opens one. -/
structure Layout.Clear (l : Layout) : Prop where
  written : ∀ x ∈ l.cited, x.2.Written
  between : ∀ x ∈ l.cited, isUnopened x.1 = true
  last : isUnopened l.last = true

/-- A line is parted at its references. -/
theorem Layout.Clear.exists_parted {l : Layout} (h : l.Clear) : ∃ ms : List (Text × Reference.Spelled),
    Text.Parted Reference.Spelled.text l.text ms l.last ∧ ms.map (·.2.toReference) = l.references := by
  obtain ⟨cited,last⟩ := l
  obtain ⟨hwritten,hbetween,hlast⟩ := h
  induction cited with
  | nil => exact ⟨[],.last (not_markIn_of_isUnopened hlast []),rfl⟩
  | cons x cited ih =>
    rw [List.forall_mem_cons] at hwritten hbetween
    obtain ⟨ms,hms,hreferences⟩ := ih hwritten.2 hbetween.2 hlast
    refine ⟨(x.1,⟨x.2,hwritten.1⟩)::ms,?_,congrArg (x.2::·) hreferences⟩
    have hline := Text.Parted.mark (m := ⟨x.2,hwritten.1⟩) (not_markIn_of_isUnopened hbetween.1 _) hms
    simpa [Layout.text,Reference.Spelled.text] using hline

theorem Layout.Clear.references_text {l : Layout} (h : l.Clear) :
    (Network.references l.text).map (·.2) = l.references := by
  obtain ⟨ms,hline,hreferences⟩ := h.exists_parted
  exact refers_iff.mp ⟨ms,l.last,hline,hreferences⟩

theorem nodeAttributes_map_text {ls : List Layout} (h : ∀ l ∈ ls, l.Clear) :
    nodeAttributes (ls.map Layout.text) = (ls.flatMap Layout.references).foldl addAttributes [] := by
  have hreferences : ls.flatMap (fun l => (references l.text).map (·.2)) = ls.flatMap Layout.references :=
    congrArg List.flatten (List.map_congr_left fun l hl => (h l hl).references_text)
  rw [nodeAttributes,List.map_flatMap,List.flatMap_map,hreferences]

/-- The attributes of nodes are what the pairs of their references set, read from left to right: a node is
there when one of its references carries a pair, and the last value of a key wins. Lists of lines are merged
node by node, and the text around the references does not count. -/
theorem nodeAttributes_last_wins :
    (∀ lines, (∃ as, Assigns lines as) ∧
      ∀ as, Assigns lines as → Merged as (nodeAttributes lines)) ∧
    (∀ lines n, n ∈ (nodeAttributes lines).keys ↔ ∃ l ∈ lines, ∃ k v, Carries l n k v) ∧
    (∀ xs ys, nodeAttributes (xs ++ ys) = mergeNodes (nodeAttributes xs) (nodeAttributes ys)) ∧
    ∀ ls ls' : List Layout, (∀ l ∈ ls, l.Clear) → (∀ l ∈ ls', l.Clear) →
      ls.map Layout.references = ls'.map Layout.references →
      nodeAttributes (ls.map Layout.text) = nodeAttributes (ls'.map Layout.text) := by
  refine ⟨fun lines => ⟨⟨_,assigns_iff.mpr rfl⟩,fun as h => ?_⟩,mem_keys_nodeAttributes,
    nodeAttributes_append,fun ls ls' hls hls' heq => ?_⟩
  · rw [assigns_iff.mp h,nodeAttributes_eq]
    exact merged_assignAll _
  · rw [nodeAttributes_map_text hls,nodeAttributes_map_text hls',List.flatMap_def,List.flatMap_def,heq]

/-- The node is referred to in two lines and with blanks around its name. The second value of one key has
colons; a piece without a value sets nothing. -/
theorem nodeAttributes_last_wins_twice :
    let first : Reference := ⟨"A".toList,some "color:red; size : 2".toList⟩
    let second : Reference := ⟨"B".toList,some "shape:".toList⟩
    let third : Reference := ⟨" A ".toList,some "color:a:b".toList⟩
    let ls : List Layout := [⟨[([],first),(" -[f()]-> ".toList,second)],[]⟩,⟨[([],third)],[]⟩]
    let ls' : List Layout :=
      [⟨[("see ".toList,first),(" and ".toList,second)],".".toList⟩,⟨[("- ".toList,third)],"!".toList⟩]
    let as : List Assignment := [⟨"A".toList,"color".toList,"red".toList⟩,
      ⟨"A".toList,"size".toList,"2".toList⟩,⟨"A".toList,"color".toList,"a:b".toList⟩]
    (∀ l ∈ ls, l.Clear) ∧ (∀ l ∈ ls', l.Clear) ∧
      ls.map Layout.references = ls'.map Layout.references ∧
      nodeAttributes (ls.map Layout.text) = nodeAttributes (ls'.map Layout.text) ∧
      Assigns (ls.map Layout.text) as ∧ Merged as (nodeAttributes (ls.map Layout.text)) ∧
      nodeAttributes (ls.map Layout.text) =
        [("A".toList,[("color".toList,"a:b".toList),("size".toList,"2".toList)])] := by
  intro first second third ls ls' as
  have hfirst : first.Written := ⟨by decide,by simp [first]⟩
  have hsecond : second.Written := ⟨by decide,by simp [second]⟩
  have hthird : third.Written := ⟨by decide,by simp [third]⟩
  have hls : ∀ l ∈ ls, l.Clear := by
    simp only [ls,List.forall_mem_cons]
    exact ⟨⟨by simp [hfirst,hsecond],by decide,rfl⟩,⟨by simp [hthird],by decide,rfl⟩,List.forall_mem_nil _⟩
  have hls' : ∀ l ∈ ls', l.Clear := by
    simp only [ls',List.forall_mem_cons]
    exact ⟨⟨by simp [hfirst,hsecond],by decide,rfl⟩,⟨by simp [hthird],by decide,rfl⟩,List.forall_mem_nil _⟩
  have hassigns : Assigns (ls.map Layout.text) as := assigns_iff.mpr rfl
  obtain ⟨hmerged,-,-,hsame⟩ := nodeAttributes_last_wins
  exact ⟨hls,hls',rfl,hsame ls ls' hls hls' rfl,hassigns,(hmerged _).2 as hassigns,by decide⟩

end Network
end Longform
