import Longform.Proofs.Html.Rereading

/-! What becomes of nodes that are taken in one by one. Texts that stand side by side grow together,
and what the reader does to blanks and attributes is done to them. -/
namespace Longform.Html

open Builder

/-- A text as it is kept inside elements of some names. -/
def finished (around : List Text) (kind : TextKind) (t : Text) : Node :=
  .text (if kind = .shown && around.any isSide then .side else kind)
    (if around.any keepsBlanks then t else squeeze t)

/-- The text that is being read, as it is kept. -/
def flushed (around : List Text) : Option Text → List Node
  | none => []
  | some t => [finished around .shown t]

/-- Text put behind the text that is being read. -/
def held (t : Text) (pending : Option Text) : Option Text :=
  if t.isEmpty then pending else some (pending.getD [] ++ t)

/-- The text of a node that has no marks around it. -/
def Node.plain? : Node → Option Text
  | .text kind t => if kind.isPlain then some t else none
  | .element _ _ _ => none

mutual
/-- What is kept of a node inside elements of some names. -/
def Node.reread (around : List Text) : Node → Node
  | .text kind t => finished around kind t
  | .element name attrs children => .element name (kept name (readAttributes attrs))
      (if isVoid name then [] else rereadAll (name::around) none children)
/-- What is kept of nodes behind a text that is being read. -/
def Node.rereadAll (around : List Text) : Option Text → List Node → List Node
  | pending, [] => flushed around pending
  | pending, n::ns => match n.plain? with
    | some t => rereadAll around (held t pending) ns
    | none => flushed around pending ++ reread around n :: rereadAll around none ns
end

/-! What is kept of a node depends on the elements around it only in whether they hide texts and whether
they keep blanks. -/

section Around
variable {around around' : List Text} (hside : around.any isSide = around'.any isSide)
  (hblanks : around.any keepsBlanks = around'.any keepsBlanks)

include hside hblanks

theorem finished_congr (kind : TextKind) (t : Text) : finished around kind t = finished around' kind t := by
  rw [finished,finished,hside,hblanks]

theorem flushed_congr (p : Option Text) : flushed around p = flushed around' p := by
  cases p with
  | none => rfl
  | some t => exact congrArg (fun n => [n]) (finished_congr hside hblanks .shown t)

omit hside hblanks in
mutual
theorem reread_congr {around around' : List Text} (hside : around.any isSide = around'.any isSide)
    (hblanks : around.any keepsBlanks = around'.any keepsBlanks) (n : Node) :
    n.reread around = n.reread around' := by
  cases n with
  | text kind t => exact finished_congr hside hblanks kind t
  | element name attrs children =>
    have hside' : (name::around).any isSide = (name::around').any isSide := by
      rw [List.any_cons,List.any_cons,hside]
    have hblanks' : (name::around).any keepsBlanks = (name::around').any keepsBlanks := by
      rw [List.any_cons,List.any_cons,hblanks]
    rw [Node.reread,Node.reread,rereadAll_congr hside' hblanks' none children]

theorem rereadAll_congr {around around' : List Text} (hside : around.any isSide = around'.any isSide)
    (hblanks : around.any keepsBlanks = around'.any keepsBlanks) (pending : Option Text)
    (ns : List Node) : Node.rereadAll around pending ns = Node.rereadAll around' pending ns := by
  cases ns with
  | nil => exact flushed_congr hside hblanks pending
  | cons n ns =>
    rw [Node.rereadAll,Node.rereadAll]
    split
    · exact rereadAll_congr hside hblanks _ ns
    · rw [flushed_congr hside hblanks,reread_congr hside hblanks n,rereadAll_congr hside hblanks none ns]
end

end Around

namespace Builder

/-- The names of the open elements. -/
def names (b : Builder) : List Text := b.opened.map (·.name)

/-- Without the text that is being read. -/
def clear (b : Builder) : Builder := { b with pending := none }

def addAll (ns : List Node) (b : Builder) : Builder := ns.foldl (fun b n => b.addNode n) b

variable {b : Builder} {n : Node} {ns ms : List Node} {kind : TextKind} {t name : Text}

theorem addAll_append : b.addAll (ns ++ ms) = (b.addAll ns).addAll ms := List.foldl_append

@[simp] theorem names_addNode : (b.addNode n).names = b.names := by
  unfold addNode names
  split <;> simp_all

@[simp] theorem pending_addNode : (b.addNode n).pending = b.pending := by
  unfold addNode
  split <;> rfl

@[simp] theorem closed_addNode : (b.addNode n).closed = b.closed := by
  unfold addNode
  split <;> rfl

@[simp] theorem names_addAll : (b.addAll ns).names = b.names := by
  induction ns generalizing b with
  | nil => rfl
  | cons n ns ih => exact ih.trans names_addNode

@[simp] theorem pending_addAll : (b.addAll ns).pending = b.pending := by
  induction ns generalizing b with
  | nil => rfl
  | cons n ns ih => exact ih.trans pending_addNode

@[simp] theorem closed_addAll : (b.addAll ns).closed = b.closed := by
  induction ns generalizing b with
  | nil => rfl
  | cons n ns ih => exact ih.trans closed_addNode

@[simp] theorem names_clear : b.clear.names = b.names := rfl
@[simp] theorem closed_clear : b.clear.closed = b.closed := rfl
@[simp] theorem pending_clear : b.clear.pending = none := rfl

theorem clear_of_pending (h : b.pending = none) : b.clear = b := by
  cases b
  cases h
  rfl

/-- Nodes that are added to an open element are its next children. -/
theorem addAll_opened (f : Frame) (fs : List Frame) (roots : List Node) (pending : Option Text)
    (closed : List Text) : addAll ns ⟨f::fs,roots,pending,closed⟩ =
      ⟨{ f with children := ns.reverse ++ f.children }::fs,roots,pending,closed⟩ := by
  induction ns generalizing f with
  | nil => rfl
  | cons n ns ih =>
    have hfirst : addNode n ⟨f::fs,roots,pending,closed⟩ =
        ⟨{ f with children := n::f.children }::fs,roots,pending,closed⟩ := rfl
    show addAll ns (addNode n _) = _
    rw [hfirst,ih]
    simp

theorem addAll_roots (roots : List Node) (pending : Option Text) (closed : List Text) :
    addAll ns ⟨[],roots,pending,closed⟩ = ⟨[],ns.reverse ++ roots,pending,closed⟩ := by
  induction ns generalizing roots with
  | nil => rfl
  | cons n ns ih =>
    show addAll ns ⟨[],n::roots,pending,closed⟩ = _
    rw [ih]
    simp

theorem flush_some (h : b.pending = some t) :
    b.flush kind = b.clear.addNode (finished b.names kind t) := by
  unfold flush finished names clear
  rw [h]
  simp only [List.any_map]
  rfl

theorem flush_none (h : b.pending = none) : b.flush kind = b := by
  unfold flush
  rw [h]

theorem flush_shown : b.flush .shown = b.clear.addAll (flushed b.names b.pending) := by
  cases h : b.pending with
  | none => exact (flush_none h).trans (clear_of_pending h).symm
  | some t => exact flush_some h

theorem mark_eq : b.mark kind t =
    b.clear.addAll (flushed b.names b.pending ++ [finished b.names kind t]) := by
  unfold mark
  rw [flush_shown,addAll_append]
  generalize hc : b.clear.addAll (flushed b.names b.pending) = c
  have hnames : c.names = b.names := by rw [← hc]; simp
  have hpending : c.pending = none := by rw [← hc]; simp
  have hwrite : (c.write t).pending = some t := by simp [write,hpending]
  rw [flush_some hwrite]
  have hclear : (c.write t).clear = c := by
    cases c
    cases hpending
    rfl
  have hsame : (c.write t).names = b.names := hnames
  rw [hclear,hsame]
  rfl

@[simp] theorem names_put : (b.put t).names = b.names := by
  unfold put
  split <;> rfl

@[simp] theorem closed_put : (b.put t).closed = b.closed := by
  unfold put
  split <;> rfl

@[simp] theorem clear_put : (b.put t).clear = b.clear := by
  unfold put
  split <;> rfl

@[simp] theorem pending_put : (b.put t).pending = held t b.pending := by
  unfold put held
  split <;> rfl

/-- An element with its content is closed by an end tag of its name. -/
theorem closeAlways_eq {attrs : Dictionary Text} {b' : Builder}
    (h : b'.flush .shown = addAll ns { b with opened := ⟨name,attrs,[]⟩::b.opened }) :
    b'.closeAlways name = b.addNode (.element name attrs ns) := by
  have hopened : addAll ns { b with opened := ⟨name,attrs,[]⟩::b.opened } =
      { b with opened := ⟨name,attrs,ns.reverse⟩::b.opened } := by
    rw [addAll_opened]
    simp
  unfold closeAlways
  rw [h,hopened]
  simp only [List.any_cons,decide_true,Bool.true_or,if_true,List.length_cons,popTo,pop,
    List.reverse_reverse]

@[simp] theorem names_flush : (b.flush .shown).names = b.names := by simp [flush_shown]
@[simp] theorem pending_flush : (b.flush .shown).pending = none := by simp [flush_shown]
@[simp] theorem closed_flush : (b.flush .shown).closed = b.closed := by simp [flush_shown]

/-- An element that is opened, given content and closed again. -/
theorem closeAlways_push {attrs : Dictionary Text} {b' : Builder}
    (h : b'.flush .shown = (b.push name attrs).clear.addAll ns) :
    b'.closeAlways name = (b.flush .shown).addNode (.element name (kept name attrs) ns) := by
  refine closeAlways_eq ?_
  have hpush : (b.push name attrs).clear = { b.flush .shown with
      opened := ⟨name,kept name attrs,[]⟩::(b.flush .shown).opened } := by
    refine clear_of_pending ?_
    exact pending_flush
  rw [h,hpush]

theorem closed_of_flush {b' : Builder} (h : b'.flush .shown = b.clear.addAll ns) :
    b'.closed = b.closed := by
  rw [← closed_flush,h]
  simp

end Builder

mutual
theorem feed_eq {n : Node} (h : n.plain? = none) {b : Builder} (hb : b.closed = []) :
    b.feed n = b.clear.addAll (flushed b.names b.pending ++ [n.reread b.names]) := by
  cases n with
  | text kind t =>
    have hkind : kind.isPlain = false := by
      cases hk : kind.isPlain with
      | false => rfl
      | true => simp [Node.plain?,hk] at h
    simp only [feed,hkind,Bool.false_eq_true,if_false]
    exact mark_eq
  | element name attrs children =>
    rw [addAll_append,← flush_shown]
    have hpending : (b.push name (readAttributes attrs)).pending = none := pending_flush
    cases hvoid : isVoid name with
    | true =>
      simp only [feed,hvoid,if_true,Node.reread]
      have hnone : (b.push name (readAttributes attrs)).flush .shown =
          (b.push name (readAttributes attrs)).clear.addAll [] :=
        (flush_none hpending).trans (clear_of_pending hpending).symm
      exact closeAlways_push hnone
    | false =>
      have hopen : b.openTag name (readAttributes attrs) = b.push name (readAttributes attrs) := by
        have hno : Text.isOneOf name voidNames = false := hvoid
        simp [openTag,hno]
      have hclosed : (b.push name (readAttributes attrs)).closed = [] := closed_flush.trans hb
      have hnames : (b.push name (readAttributes attrs)).names = name::b.names := by
        have hflush : (b.flush .shown).names = b.names := names_flush
        show name::(b.flush .shown).names = _
        rw [hflush]
      have hinside := flush_feedAll children hclosed
      rw [hnames,hpending] at hinside
      simp only [feed,hvoid,Bool.false_eq_true,if_false,Node.reread,hopen]
      have hnone : (feedAll children (b.push name (readAttributes attrs))).closed = [] :=
        (closed_of_flush hinside).trans hclosed
      have hclose : (feedAll children (b.push name (readAttributes attrs))).close name =
          (feedAll children (b.push name (readAttributes attrs))).closeAlways name := by
        unfold close
        rw [hnone]
        rfl
      rw [hclose]
      exact closeAlways_push hinside

theorem flush_feedAll (ns : List Node) {b : Builder} (hb : b.closed = []) :
    (b.feedAll ns).flush .shown = b.clear.addAll (Node.rereadAll b.names b.pending ns) := by
  cases ns with
  | nil => exact flush_shown
  | cons n ns =>
    rw [Node.rereadAll]
    cases hplain : n.plain? with
    | some t =>
      have hfeed : b.feed n = b.put t := by
        cases n with
        | text kind u =>
          cases hk : kind.isPlain with
          | false => simp [Node.plain?,hk] at hplain
          | true =>
            simp only [Node.plain?,hk,if_true,Option.some.injEq] at hplain
            simp only [feed,hk,if_true,hplain]
        | element name attrs children => cases hplain
      have hrest := flush_feedAll ns (b:=b.put t) (by simp [hb])
      rw [feedAll,hfeed,hrest]
      simp
    | none =>
      have hfeed := feed_eq hplain hb
      have hrest := flush_feedAll ns (b:=b.feed n) (by simp [hfeed,hb])
      have hnames : (b.feed n).names = b.names := by simp [hfeed]
      have hpending : (b.feed n).pending = none := by simp [hfeed]
      rw [feedAll,hrest,clear_of_pending hpending,hnames,hpending,hfeed,← addAll_append,
        List.append_assoc]
      rfl
end

/-- A text that is markup of nodes is read as what is kept of them. -/
theorem parse_of_reads {t : Text} {ns : List Node} (h : Reads t ns) :
    parse t = .ok (Node.rereadAll [] none ns) := by
  have hflush := flush_feedAll ns (b:=Builder.empty) rfl
  have hroots : (Builder.empty.clear.addAll (Node.rereadAll [] none ns)) =
      ⟨[],(Node.rereadAll [] none ns).reverse,none,[]⟩ := by
    rw [← List.append_nil (Node.rereadAll [] none ns).reverse]
    exact addAll_roots [] none []
  rw [parse_of_acts h]
  unfold finish
  have hall := hflush.trans hroots
  simp only [hall,List.foldl_nil,List.reverse_reverse]

end Longform.Html
