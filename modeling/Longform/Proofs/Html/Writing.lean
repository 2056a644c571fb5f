import Mathlib.Data.List.Forall2
import Longform.Proofs.Html.Kept
import Longform.Proofs.Page.Fragment
import Longform.Proofs.Text.Lines

/-! Elements that are written with escaped attribute values, around a text or around other elements on
lines of their own. Nothing but the names of the attributes can spoil them: each has to be a name, and in
lower case none may come twice. -/
namespace Longform
namespace Html

open Builder Page Text

/-- Attributes as they are read: names in lower case, lists of words with single spaces. -/
def asRead (name : Text) (attrs : Dictionary Text) : Dictionary Text :=
  worded name (attrs.map fun a => (lower a.1,a.2))

/-- Names that the attributes of one element can have. -/
structure Nameable (names : List Text) : Prop where
  each : ∀ k ∈ names, IsAttributeName k
  nodup : (names.map lower).Nodup

instance (names : List Text) : Decidable (Nameable names) :=
  decidable_of_iff ((∀ k ∈ names, IsAttributeName k) ∧ (names.map lower).Nodup)
    ⟨fun h => ⟨h.1,h.2⟩,fun h => ⟨h.each,h.nodup⟩⟩

theorem Nameable.sublist {names some : List Text} (h : Nameable names) (hs : some.Sublist names) :
    Nameable some :=
  ⟨fun k hk => h.each k (hs.subset hk),h.nodup.sublist (hs.map lower)⟩

/-- Elements that hold what is shown. -/
structure IsContainer (name : Text) : Prop where
  element : IsElementName name
  closable : Closable name
  not_void : isVoid name = false
  not_literal : isLiteralName name = false
  not_side : isSide name = false
  squeezes : keepsBlanks name = false

section Attributes
variable {name : Text} {attrs : Dictionary Text}

theorem kept_eq_asRead (hname : name ≠ "meta".toList) (h : Nameable attrs.keys) :
    kept name (readAttributes attrs) = asRead name attrs := by
  have hkeys : Dictionary.keys (attrs.map fun a => (lower a.1,a.2)) = attrs.keys.map lower := by
    simp [Dictionary.keys]
  have hnodup : (Dictionary.keys (attrs.map fun a => (lower a.1,a.2))).Nodup := hkeys ▸ h.nodup
  rw [kept_worded,if_neg hname,readAttributes,Dictionary.ofEntries_of_nodup hnodup]
  rfl

theorem IsKept.nameable (h : IsKept name attrs) : Nameable attrs.keys := by
  have hlower : attrs.keys.map Text.lower = attrs.keys := by
    rw [Dictionary.keys,List.map_map]
    exact List.map_congr_left h.lower
  refine ⟨fun k hk => ?_,by rw [hlower]; exact h.nodup⟩
  obtain ⟨a,ha,rfl⟩ := List.mem_map.mp hk
  exact h.names a ha

theorem attributable_escaped (h : Nameable attrs.keys) :
    Attributable (fun v => doubleQuoted (escapeAttribute v)) attrs := fun a ha =>
  ⟨h.each a.1 (List.mem_map_of_mem ha),quotes_escapeAttribute a.2⟩

end Attributes

/-! One element. -/

def startText (name : Text) (attrs : Dictionary Text) : Text :=
  '<' :: (name ++ (attributesText (fun v => doubleQuoted (escapeAttribute v)) attrs ++ ['>']))

def endText (name : Text) : Text := '<' :: '/' :: (name ++ ['>'])

/-- The markup of an element with some markup inside. -/
def elementText (name : Text) (attrs : Dictionary Text) (inside : Text) : Text :=
  startText name attrs ++ (inside ++ endText name)

/-- Elements around that leave texts as they are. -/
def IsQuiet (around : List Text) : Prop :=
  around.any isSide = false ∧ around.any keepsBlanks = false

/-- The text is markup of one element, of which `x` is kept. -/
def Shows (t : Text) (x : Node) : Prop :=
  ∃ y : Node, y.plain? = none ∧ Reads t [y] ∧ ∀ around, IsQuiet around → y.reread around = x

theorem isContainer_cons {c : Char} {r : Text} (h : (c.isAlpha = true ∧ IsTagName (c::r) ∧
    lower (c::r) = c::r) ∧ Closable (c::r) ∧ isVoid (c::r) = false ∧ isLiteralName (c::r) = false ∧
    isSide (c::r) = false ∧ keepsBlanks (c::r) = false) : IsContainer (c::r) := by
  obtain ⟨⟨hletter,hchars,hlower⟩,hclosable,hvoid,hliteral,hside,hblanks⟩ := h
  exact ⟨⟨⟨c,r,rfl,hletter⟩,hchars,hlower⟩,hclosable,hvoid,hliteral,hside,hblanks⟩

theorem IsContainer.isQuiet_cons {name : Text} (h : IsContainer name) {around : List Text}
    (ha : IsQuiet around) : IsQuiet (name::around) := by
  unfold IsQuiet
  rw [List.any_cons,List.any_cons,h.not_side,h.squeezes]
  exact ha

theorem IsContainer.ne_meta {name : Text} (h : IsContainer name) : name ≠ "meta".toList := by
  rintro rfl
  exact absurd h.not_void (by decide)

/-- An element whose attributes are understood, whatever quotes they are written in. -/
theorem shows_quoted {quote : Text → Text} {name inside : Text} {attrs : Dictionary Text}
    {xs ys : List Node} (hname : IsContainer name) (h : Nameable attrs.keys)
    (hquote : Attributable quote attrs) (hinside : Reads inside ys)
    (hkept : ∀ around, IsQuiet around → Node.rereadAll around none ys = xs) :
    Shows ('<' :: (name ++ (attributesText quote attrs ++ '>' :: (inside ++ endText name))))
      (.element name (asRead name attrs) xs) := by
  refine ⟨.element name attrs ys,rfl,?_,fun around ha => ?_⟩
  · exact reads_element hname.element hname.closable hquote hname.not_void hname.not_literal hinside
  · rw [Node.reread,kept_eq_asRead hname.ne_meta h,if_neg (by simp [hname.not_void]),
      hkept _ (hname.isQuiet_cons ha)]

theorem shows_element {name inside : Text} {attrs : Dictionary Text} {xs ys : List Node}
    (hname : IsContainer name) (h : Nameable attrs.keys) (hinside : Reads inside ys)
    (hkept : ∀ around, IsQuiet around → Node.rereadAll around none ys = xs) :
    Shows (elementText name attrs inside) (.element name (asRead name attrs) xs) := by
  have hshow := shows_quoted hname h (attributable_escaped h) hinside hkept
  simpa [elementText,startText] using hshow

/-- A text that begins with something other than a blank. -/
def BeginsVisibly (t : Text) : Prop := ∃ c r, t = c::r ∧ isBlank c = false

theorem BeginsVisibly.squeeze_eq {t : Text} (h : BeginsVisibly t) : squeeze t = t := by
  obtain ⟨c,r,rfl,hc⟩ := h
  refine if_neg fun hall => ?_
  have hplain := List.all_eq_true.mp hall c List.mem_cons_self
  simp only [isPlainBlank,Bool.or_eq_true,decide_eq_true_eq] at hplain
  rcases hplain with (((rfl | rfl) | rfl) | rfl) | rfl <;> cases hc

theorem finished_of_isQuiet {around : List Text} (h : IsQuiet around) (t : Text) :
    finished around .shown t = .text .shown (squeeze t) := by
  rw [finished,h.1,h.2]
  rfl

/-- The node of a text, if there is one. -/
def textNodes (t : Text) : List Node := if t.isEmpty then [] else [.text .shown t]

theorem rereadAll_text {around : List Text} (h : IsQuiet around) {t : Text} (ht : squeeze t = t) :
    Node.rereadAll around none [.text .shown t] = textNodes t := by
  cases t with
  | nil => rfl
  | cons c t =>
    show [finished around .shown (c::t)] = _
    rw [finished_of_isQuiet h,ht]
    rfl

theorem reads_escapeContent (t : Text) : Reads (escapeContent t) [.text .shown t] :=
  acts_escapeContent t

/-- An element around a text. -/
theorem shows_text {name t : Text} {attrs : Dictionary Text} (hname : IsContainer name)
    (h : Nameable attrs.keys) (ht : t ≠ [] → BeginsVisibly t) :
    Shows (elementText name attrs (escapeContent t))
      (.element name (asRead name attrs) (textNodes t)) := by
  cases t with
  | nil => exact shows_element hname h reads_nil fun _ _ => rfl
  | cons c t =>
    exact shows_element hname h (reads_escapeContent (c::t)) fun _ ha =>
      rereadAll_text ha (ht (List.cons_ne_nil c t)).squeeze_eq

theorem legible_container {name : Text} {attrs : Dictionary Text} {children : List Node}
    (hname : IsContainer name) (hattrs : Nameable attrs.keys) (h : LegibleAll children) :
    Legible (.element name attrs children) := by
  refine ⟨hname.element,hname.closable,fun a ha => hattrs.each a.1 (List.mem_map_of_mem ha),?_,?_⟩
  · simp [hname.not_void]
  · rwa [if_neg (by simp [hname.not_literal])]

/-- An element whose attributes stay as they are. -/
theorem rereadAll_container {name : Text} {attrs : Dictionary Text} {children : List Node}
    (hname : IsContainer name) (hattrs : Nameable attrs.keys) (hread : asRead name attrs = attrs)
    (around : List Text) : Node.rereadAll around none [.element name attrs children] =
      [.element name attrs (Node.rereadAll (name::around) none children)] := by
  simp only [Node.rereadAll,Node.plain?,flushed,Node.reread,kept_eq_asRead hname.ne_meta hattrs,hread,
    hname.not_void,Bool.false_eq_true,if_false,List.nil_append]

/-- The markup of a node that is written as one node. -/
theorem shows_markup {n x : Node} (h : Legible n) (hprinted : n.printed = [x]) (hx : x.plain? = none) :
    Shows (n.markup false) (x.reread []) :=
  ⟨x,hx,hprinted ▸ reads_node h,fun _ ha => reread_congr ha.1 ha.2 x⟩

/-- Elements one behind the other. -/
theorem exists_reads_flatten {fs : List Text} {xs : List Node} (h : List.Forall₂ Shows fs xs) :
    ∃ ys, Reads fs.flatten ys ∧
      ∀ around, IsQuiet around → Node.rereadAll around none ys = xs := by
  induction h with
  | nil => exact ⟨[],reads_nil,fun _ _ => rfl⟩
  | @cons f x fs xs hfirst _ ih =>
    obtain ⟨y,hy,hread,hx⟩ := hfirst
    obtain ⟨ys,hreads,hxs⟩ := ih
    refine ⟨y::ys,hread.append hreads,fun around ha => ?_⟩
    simp only [Node.rereadAll,hy,flushed,hx around ha,hxs around ha,List.nil_append]

/-! Elements on lines. -/

/-- Nodes that stand on lines of their own, with a line break behind the last one. -/
def onLines (xs : List Node) : List Node := xs.flatMap (fun x => [newline,x]) ++ [newline]

theorem finished_newline {around : List Text} (h : IsQuiet around) :
    finished around .shown ['\n'] = newline := by
  have hbreak : squeeze ['\n'] = ['\n'] := by decide
  rw [finished_of_isQuiet h,hbreak]
  rfl

theorem exists_reads_onLines {fs : List Text} {xs : List Node} (h : List.Forall₂ Shows fs xs) :
    ∃ ys, Reads (below fs ++ ['\n']) ys ∧
      ∀ around, IsQuiet around → Node.rereadAll around none ys = onLines xs := by
  induction h with
  | nil =>
    refine ⟨[newline],reads_newline,fun around ha => ?_⟩
    show [finished around .shown ['\n']] = _
    rw [finished_newline ha]
    rfl
  | @cons f x fs xs hfirst _ ih =>
    obtain ⟨y,hy,hread,hx⟩ := hfirst
    obtain ⟨ys,hreads,hxs⟩ := ih
    refine ⟨newline::y::ys,?_,fun around ha => ?_⟩
    · have hall := reads_newline.append (hread.append hreads)
      rw [below_cons,List.cons_append,List.append_assoc]
      exact hall
    · have hbreak : Node.rereadAll around none (newline::y::ys) =
          finished around .shown ['\n']::y.reread around::Node.rereadAll around none ys := by
        show Node.rereadAll around (some ['\n']) (y::ys) = _
        simp only [Node.rereadAll,hy]
        rfl
      rw [hbreak,finished_newline ha,hx around ha,hxs around ha]
      rfl

/-- An element around others, each on a line of its own. -/
theorem shows_onLines {name : Text} {attrs : Dictionary Text} {fs : List Text} {xs : List Node}
    (hname : IsContainer name) (h : Nameable attrs.keys) (hfs : List.Forall₂ Shows fs xs) :
    Shows (elementText name attrs (below fs ++ ['\n']))
      (.element name (asRead name attrs) (onLines xs)) := by
  obtain ⟨ys,hreads,hkept⟩ := exists_reads_onLines hfs
  exact shows_element hname h hreads hkept

theorem Shows.parse_eq {t : Text} {x : Node} (h : Shows t x) : parse t = .ok [x] := by
  obtain ⟨y,hy,hread,hx⟩ := h
  rw [parse_of_reads hread]
  simp only [Node.rereadAll,hy,flushed,hx [] ⟨rfl,rfl⟩,List.nil_append]

/-- A text of one element and a line break. -/
theorem parse_of_shows {t : Text} {x : Node} (h : Shows t x) :
    parse (t ++ ['\n']) = .ok [x,newline] := by
  obtain ⟨y,hy,hread,hx⟩ := h
  have hquiet : IsQuiet [] := ⟨rfl,rfl⟩
  have hall : Node.rereadAll [] none [y,newline] = [y.reread [],newline] := by
    simp only [Node.rereadAll,hy]
    rfl
  rw [parse_of_reads (hread.append reads_newline)]
  show Except.ok (Node.rereadAll [] none [y,newline]) = _
  rw [hall,hx [] hquiet]

theorem Shows.ne_nil {t : Text} {x : Node} (h : Shows t x) : t ≠ [] := by
  rintro rfl
  have hparse := parse_of_shows h
  have hbreak : parse ['\n'] = .ok [newline] := rfl
  rw [List.nil_append,hbreak] at hparse
  cases hparse

/-! What was read as it should be was written with proper names. -/

end Html
end Longform
