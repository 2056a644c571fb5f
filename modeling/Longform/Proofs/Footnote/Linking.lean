import Longform.Footnote.Reference
import Longform.Proofs.Text.Search

/-! Linking references in a tree. The places of a tree where known notes are referred to are left open
and filled with links, one for each reference in order; all other characters and tags stay as they
are. -/
namespace Longform

namespace Html

/-- What a reader of markup meets: characters of texts, and tags. -/
inductive Sign
  | char (c : Char)
  | opens (name : Text) (attrs : Dictionary Text)
  | closes (name : Text)

mutual
/-- The characters and tags of a node in order. -/
def Node.signs : Node → List Sign
  | .text _ t => t.map .char
  | .element name attrs children => .opens name attrs::signsAll children ++ [.closes name]
def Node.signsAll : List Node → List Sign
  | [] => []
  | n::ns => Node.signs n ++ Node.signsAll ns
end

mutual
/-- The texts in a node in order, each with the names of the elements around it, the innermost first. -/
def Node.texts (around : List Text) : Node → List (List Text × Text)
  | .text _ t => [(around,t)]
  | .element name _ children => textsAll (name::around) children
def Node.textsAll (around : List Text) : List Node → List (List Text × Text)
  | [] => []
  | n::ns => Node.texts around n ++ Node.textsAll around ns
end

theorem Node.signsAll_append (ns ms : List Node) : signsAll (ns ++ ms) = signsAll ns ++ signsAll ms := by
  induction ns with
  | nil => rfl
  | cons n ns ih => simp [signsAll,ih]

end Html

namespace Footnote
open Html

/-- A reference as it is written. -/
def mark (id : Text) : Text := "[^".toList ++ id ++ [']']

theorem eq_mark_append {t id rest : Text} (h : reference? t = some (id,rest)) :
    t = mark id ++ rest := by
  unfold reference? at h
  split at h
  · cases h
  · rename_i r hr
    obtain ⟨hcut,-⟩ := Option.filter_eq_some_iff.mp h
    rw [Text.eq_append_of_after? hr,(Text.eq_append_of_cutAt hcut).1]
    simp [mark]

/-- The text that a piece was cut from. -/
def Piece.source : Piece → Text
  | .plain t => t
  | .reference id => mark id

theorem source_prepend (t : Text) (ps : List Piece) :
    (prepend t ps).flatMap Piece.source = t ++ ps.flatMap Piece.source := by
  unfold prepend
  split
  · simp [Piece.source]
  · split
    · simp_all
    · simp [Piece.source]

theorem ids_prepend (t : Text) (ps : List Piece) :
    (prepend t ps).filterMap Piece.id? = ps.filterMap Piece.id? := by
  unfold prepend
  split
  · rfl
  · split <;> rfl

section Pieces
variable (known : Text → Bool)

/-- Cutting a text loses nothing. -/
theorem source_piecesFrom (fuel : Nat) (t : Text) :
    (piecesFrom known fuel t).flatMap Piece.source = t := by
  induction fuel generalizing t with
  | zero => rw [piecesFrom,source_prepend]; simp
  | succ fuel ih =>
    cases t with
    | nil => rfl
    | cons c r =>
      rw [piecesFrom]
      split
      · rename_i id rest hread
        split
        · rw [List.flatMap_cons,ih,eq_mark_append hread]
          rfl
        · rw [source_prepend,ih,eq_mark_append hread]
          rfl
      · rw [source_prepend,ih]
        rfl

theorem source_pieces (t : Text) : (pieces known t).flatMap Piece.source = t :=
  source_piecesFrom known _ t

/-- The ids of all references in a text, whatever they refer to. -/
def mentions (t : Text) : List Text := (pieces (fun _ => true) t).filterMap Piece.id?

theorem ids_piecesFrom (fuel : Nat) (t : Text) : (piecesFrom known fuel t).filterMap Piece.id? =
    ((piecesFrom (fun _ => true) fuel t).filterMap Piece.id?).filter known := by
  induction fuel generalizing t with
  | zero => rw [piecesFrom,piecesFrom,ids_prepend]; rfl
  | succ fuel ih =>
    cases t with
    | nil => rfl
    | cons c r =>
      rw [piecesFrom,piecesFrom]
      split
      · rename_i id rest hread
        cases hid : known id with
        | true => simp [Piece.id?,hid,ih]
        | false => simp [ids_prepend,Piece.id?,hid,ih]
      · rw [ids_prepend,ids_prepend,ih]

/-- The references that are kept apart are those to known notes. -/
theorem ids_pieces (t : Text) :
    (pieces known t).filterMap Piece.id? = (mentions t).filter known :=
  ids_piecesFrom known _ t

end Pieces

/-- What texts cite, given the elements around each of them. Texts in code, scripts and styles cite
nothing. -/
def citedIn (known : Text → Bool) (ts : List (List Text × Text)) : List Text :=
  ts.flatMap fun (around,t) => if around.any isLiteral then [] else (mentions t).filter known

/-- The known ids that the texts of a tree refer to, in order. -/
def cited (known : Text → Bool) (ns : List Node) : List Text := citedIn known (Node.textsAll [] ns)

/-- A tree with places left open for the links to notes. -/
inductive Sketch
  | node (n : Node)
  | slot (id : Text)
  | element (name : Text) (attrs : Dictionary Text) (children : List Sketch)

namespace Sketch

mutual
/-- The ids that the open places are for, in order. -/
def ids : Sketch → List Text
  | .node _ => []
  | .slot id => [id]
  | .element _ _ children => idsAll children
def idsAll : List Sketch → List Text
  | [] => []
  | s::ss => ids s ++ idsAll ss
end

mutual
/-- The tree with every open place filled. -/
def fill (f : Text → Node) : Sketch → Node
  | .node n => n
  | .slot id => f id
  | .element name attrs children => .element name attrs (fillAll f children)
def fillAll (f : Text → Node) : List Sketch → List Node
  | [] => []
  | s::ss => fill f s::fillAll f ss
end

theorem fillAll_eq_map (f : Text → Node) (ss : List Sketch) : fillAll f ss = ss.map (fill f) := by
  induction ss with
  | nil => rfl
  | cons s ss ih => rw [fillAll,ih,List.map_cons]

theorem fillAll_append (f : Text → Node) (ss us : List Sketch) :
    fillAll f (ss ++ us) = fillAll f ss ++ fillAll f us := by
  simp [fillAll_eq_map]

theorem idsAll_append (ss us : List Sketch) : idsAll (ss ++ us) = idsAll ss ++ idsAll us := by
  induction ss with
  | nil => rfl
  | cons s ss ih => simp [idsAll,ih]

end Sketch

def Piece.sketch : Piece → Sketch
  | .plain t => .node (.text .shown t)
  | .reference id => .slot id

/-- A reference written out. -/
def written (id : Text) : Node := .text .shown (mark id)

def sketchText (known : Text → Bool) (kind : TextKind) (t : Text) : List Sketch :=
  let ps := pieces known t
  if (ps.filterMap Piece.id?).isEmpty then [.node (.text kind t)] else ps.map Piece.sketch

mutual
/-- A node with its references to known notes left open. -/
def sketchNode (known : Text → Bool) : Node → List Sketch
  | .text kind t => sketchText known kind t
  | .element name attrs children =>
    if isLiteral name then [.node (.element name attrs children)]
    else [.element name attrs (sketchAll known children)]
def sketchAll (known : Text → Bool) : List Node → List Sketch
  | [] => []
  | n::ns => sketchNode known n ++ sketchAll known ns
end

section Sketch
variable (known : Text → Bool) (unit : Int)

theorem idsAll_map_sketch (ps : List Piece) :
    Sketch.idsAll (ps.map Piece.sketch) = ps.filterMap Piece.id? := by
  induction ps with
  | nil => rfl
  | cons p ps ih =>
    cases p <;> simp [Sketch.idsAll,Sketch.ids,Piece.sketch,List.filterMap_cons,Piece.id?,ih]

theorem fillAll_map_sketch (ps : List Piece) :
    Sketch.fillAll (link unit) (ps.map Piece.sketch) = ps.map (Piece.node unit) := by
  rw [Sketch.fillAll_eq_map,List.map_map]
  refine List.map_congr_left fun p _ => ?_
  cases p <;> rfl

theorem signsAll_map_sketch (ps : List Piece) :
    Node.signsAll (Sketch.fillAll written (ps.map Piece.sketch)) =
      (ps.flatMap Piece.source).map Sign.char := by
  induction ps with
  | nil => rfl
  | cons p ps ih =>
    cases p <;> simp [Sketch.fillAll,Sketch.fill,Piece.sketch,Piece.source,Node.signsAll,Node.signs,
      written,ih]

mutual
theorem fillAll_sketchNode (n : Node) :
    Sketch.fillAll (link unit) (sketchNode known n) = linkNode known unit n := by
  cases n with
  | text kind t =>
    unfold sketchNode sketchText linkNode linkText
    by_cases h : ((pieces known t).filterMap Piece.id?).isEmpty = true
    · simp only [if_pos h]
      rfl
    · simp only [if_neg h,fillAll_map_sketch]
  | element name attrs children =>
    unfold sketchNode linkNode
    by_cases h : isLiteral name = true
    · simp only [if_pos h]
      rfl
    · simp only [if_neg h,Sketch.fillAll,Sketch.fill,fillAll_sketchAll children]

/-- Filled with links, the sketch is the linked tree. -/
theorem fillAll_sketchAll (ns : List Node) :
    Sketch.fillAll (link unit) (sketchAll known ns) = linkAll known unit ns := by
  cases ns with
  | nil => rfl
  | cons n ns =>
    rw [sketchAll,linkAll,Sketch.fillAll_append,fillAll_sketchNode n,fillAll_sketchAll ns]
end

mutual
theorem idsAll_sketchNode (n : Node) :
    Sketch.idsAll (sketchNode known n) = occurrences known n := by
  cases n with
  | text kind t =>
    unfold sketchNode sketchText occurrences
    by_cases h : ((pieces known t).filterMap Piece.id?).isEmpty = true
    · simp only [List.isEmpty_iff.mp h]
      rfl
    · simp only [if_neg h,idsAll_map_sketch]
  | element name attrs children =>
    unfold sketchNode occurrences
    by_cases h : isLiteral name = true
    · simp only [if_pos h]
      rfl
    · simp only [if_neg h,Sketch.idsAll,Sketch.ids,idsAll_sketchAll children,List.append_nil]

/-- The places left open are the occurrences of known ids. -/
theorem idsAll_sketchAll (ns : List Node) :
    Sketch.idsAll (sketchAll known ns) = occurrencesAll known ns := by
  cases ns with
  | nil => rfl
  | cons n ns =>
    rw [sketchAll,occurrencesAll,Sketch.idsAll_append,idsAll_sketchNode n,idsAll_sketchAll ns]
end

mutual
theorem signsAll_sketchNode (n : Node) :
    Node.signsAll (Sketch.fillAll written (sketchNode known n)) = Node.signs n := by
  cases n with
  | text kind t =>
    unfold sketchNode sketchText
    by_cases h : ((pieces known t).filterMap Piece.id?).isEmpty = true
    · simp only [if_pos h]
      exact List.append_nil _
    · simp only [if_neg h,signsAll_map_sketch,source_pieces]
      rfl
  | element name attrs children =>
    unfold sketchNode
    by_cases h : isLiteral name = true
    · simp only [if_pos h]
      exact List.append_nil _
    · simp only [if_neg h,Sketch.fillAll,Sketch.fill,Node.signsAll,Node.signs,
        signsAll_sketchAll children,List.append_nil]

/-- With the references written out, the sketch has the characters and tags of the tree. -/
theorem signsAll_sketchAll (ns : List Node) :
    Node.signsAll (Sketch.fillAll written (sketchAll known ns)) = Node.signsAll ns := by
  cases ns with
  | nil => rfl
  | cons n ns =>
    rw [sketchAll,Sketch.fillAll_append,Node.signsAll_append,signsAll_sketchNode n,
      signsAll_sketchAll ns,Node.signsAll]
end

theorem citedIn_append (ts us : List (List Text × Text)) :
    citedIn known (ts ++ us) = citedIn known ts ++ citedIn known us := List.flatMap_append

mutual
theorem citedIn_texts_of_literal {around : List Text} (h : around.any isLiteral = true) (n : Node) :
    citedIn known (Node.texts around n) = [] := by
  cases n with
  | text kind t =>
    rw [Node.texts,citedIn,List.flatMap_singleton]
    exact if_pos h
  | element name attrs children =>
    have hname : (name::around).any isLiteral = true := by simp [h]
    rw [Node.texts,citedIn_textsAll_of_literal hname children]

theorem citedIn_textsAll_of_literal {around : List Text} (h : around.any isLiteral = true) (ns : List Node) :
    citedIn known (Node.textsAll around ns) = [] := by
  cases ns with
  | nil => rfl
  | cons n ns =>
    rw [Node.textsAll,citedIn_append,citedIn_texts_of_literal h n,citedIn_textsAll_of_literal h ns]
    rfl
end

mutual
theorem citedIn_texts {around : List Text} (h : around.any isLiteral = false) (n : Node) :
    citedIn known (Node.texts around n) = occurrences known n := by
  cases n with
  | text kind t =>
    rw [Node.texts,citedIn,List.flatMap_singleton,occurrences,ids_pieces]
    exact if_neg (Bool.eq_false_iff.mp h)
  | element name attrs children =>
    rw [Node.texts,occurrences]
    cases hname : isLiteral name with
    | true =>
      rw [citedIn_textsAll_of_literal known (by simp [hname])]
      rfl
    | false =>
      rw [citedIn_textsAll (by simp [hname,h]) children]
      rfl

theorem citedIn_textsAll {around : List Text} (h : around.any isLiteral = false) (ns : List Node) :
    citedIn known (Node.textsAll around ns) = occurrencesAll known ns := by
  cases ns with
  | nil => rfl
  | cons n ns =>
    rw [Node.textsAll,citedIn_append,citedIn_texts h n,citedIn_textsAll h ns]
    rfl
end

/-- What is collected of a tree is what its texts cite. -/
theorem occurrencesAll_eq_cited (ns : List Node) : occurrencesAll known ns = cited known ns :=
  (citedIn_textsAll known rfl ns).symm

end Sketch
end Footnote
end Longform
