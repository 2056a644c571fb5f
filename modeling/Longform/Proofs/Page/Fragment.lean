import Mathlib.Data.List.Forall2
import Longform.Page.Block
import Longform.Proofs.Html.Sound
import Longform.Proofs.Text.Trim

/-! The fragments of a page as markup. Each is the markup of one node, of which the fragments on
separate lines are read again: line breaks come between, and before and behind a plain text they become
part of it. -/
namespace Longform
namespace Page
open Html

/-- The break between two fragments. -/
def newline : Node := .text .shown ['\n']

theorem isPlain_newline : IsPlain '\n' := ⟨by decide,by decide⟩

theorem reads_newline : Reads ['\n'] [newline] := acts_char isPlain_newline

/-- A node that a fragment can be markup of. -/
def IsPiece (x : Node) : Prop := x.plain? = none ∨ ∃ t, t ≠ [] ∧ x = .text .shown t

/-- Fragments on separate lines. -/
theorem reads_joinLines {fs : List Text} {xs : List Node}
    (h : List.Forall₂ (fun f x => Reads f [x]) fs xs) :
    Reads (Text.joinLines fs) (xs.intersperse newline) := by
  induction h with
  | nil => exact reads_nil
  | @cons f x fs xs hx hrest ih =>
    cases hrest with
    | nil => exact hx
    | @cons g y gs ys hy hrest =>
      rw [List.intersperse_cons_cons]
      exact (hx.append reads_newline).append ih

/-! Lists. -/

section List
variable {m : Membership} {items : List Text} {attrs : Dictionary Text}

theorem eq_of_isList {name : Text} (h : isList name = true) :
    name = "ul".toList ∨ name = "ol".toList := by
  unfold isList at h
  rwa [Bool.or_eq_true,decide_eq_true_eq,decide_eq_true_eq] at h

theorem isElementName_of_isList {name : Text} (h : isList name = true) :
    IsElementName name ∧ Closable name ∧ isVoid name = false ∧ isLiteralName name = false := by
  rcases eq_of_isList h with rfl | rfl
  · exact ⟨⟨⟨'u',['l'],rfl,by decide⟩,by decide,by decide⟩,by decide,by decide,by decide⟩
  · exact ⟨⟨⟨'o',['l'],rfl,by decide⟩,by decide,by decide⟩,by decide,by decide,by decide⟩

theorem listMarkup_eq (h : attributes m = .ok attrs) :
    listMarkup m items = .ok ('<' :: (m.tag ++ (attributesText
      (fun v => doubleQuoted (Text.escapeAttribute v)) attrs ++
        '>' :: ('\n' :: (Text.joinLines items ++ ['\n']) ++
          '<' :: '/' :: (m.tag ++ ['>']))))) := by
  have hclose : "\n</".toList = '\n' :: '<' :: ['/'] := rfl
  have hattrs : attributesText (fun v => doubleQuoted (Text.escapeAttribute v)) attrs =
      attrs.flatMap fun a => ' ' :: a.1 ++ '=' :: '"' :: Text.escapeAttribute a.2 ++ ['"'] := by
    refine congrArg (fun f => List.flatMap f attrs) ?_
    funext a
    simp [doubleQuoted]
  rw [listMarkup,opening,h,hattrs]
  simp only [Except.map,hclose]
  simp

/-- A list that is put together from items, on a line each. -/
theorem reads_listMarkup {t : Text} {xs : List Node} (htag : isList m.tag = true)
    (hattrs : attributes m = .ok attrs) (hnames : ∀ a ∈ attrs, IsAttributeName a.1)
    (hitems : List.Forall₂ (fun f x => Reads f [x]) items xs) (h : listMarkup m items = .ok t) :
    Reads t [.element m.tag attrs (newline :: (xs.intersperse newline ++ [newline]))] := by
  obtain ⟨hname,hclose,hvoid,hliteral⟩ := isElementName_of_isList htag
  have hquoted : Attributable (fun v => doubleQuoted (Text.escapeAttribute v)) attrs := fun a ha =>
    ⟨hnames a ha,quotes_escapeAttribute a.2⟩
  have hinside := (reads_newline.append (reads_joinLines hitems)).append reads_newline
  rw [listMarkup_eq hattrs] at h
  cases h
  exact reads_element hname hclose hquoted hvoid hliteral hinside

end List

/-! Fragments that are read again. -/

/-- The nodes `ms` are what is read of `xs` on separate lines. -/
inductive Lined : List Node → List Node → Prop
  | nil : Lined [] []
  | line {xs ms} : Lined xs ms → Lined xs (newline::ms)
  | text {t before behind xs ms} : before ∈ [[],['\n']] → behind ∈ [[],['\n']] → Lined xs ms →
      Lined (.text .shown t::xs) (.text .shown (Builder.squeeze (before ++ t ++ behind))::ms)
  | marked {x xs ms} : x.plain? = none → Lined xs ms → Lined (x::xs) (x.reread []::ms)

/-- A text that is being read, if it is not empty. -/
def pending (p : Text) : Option Text := if p.isEmpty then none else some p

theorem held_pending (p : Text) {t : Text} (h : t ≠ []) : held t (pending p) = some (p ++ t) := by
  have ht : t.isEmpty = false := by simpa using h
  cases p <;> simp [held,pending,ht]

theorem flushed_some (t : Text) : flushed [] (some t) = [.text .shown (Builder.squeeze t)] := rfl

theorem lined_flushed {p : Text} {xs ms : List Node} (hp : p ∈ [[],['\n']]) (h : Lined xs ms) :
    Lined xs (flushed [] (pending p) ++ ms) := by
  simp only [List.mem_cons,List.not_mem_nil,or_false] at hp
  rcases hp with rfl | rfl
  · exact h
  · exact h.line

/-- What stands behind the first of some nodes on separate lines. -/
def linesBehind : List Node → List Node
  | [] => []
  | y::ys => newline::(y::ys).intersperse newline

theorem intersperse_cons (x : Node) (xs : List Node) :
    (x::xs).intersperse newline = x::linesBehind xs := by
  cases xs <;> rfl

/-- What is read of nodes on separate lines, behind a line break or nothing. -/
theorem lined_rereadAll {xs : List Node} (hpieces : ∀ x ∈ xs, IsPiece x) (hchain : xs.IsChain Apart)
    {p : Text} (hp : p ∈ [[],['\n']]) :
    Lined xs (Node.rereadAll [] (pending p) (xs.intersperse newline)) := by
  have hnone : ([] : Text) ∈ [[],['\n']] := by simp
  have hbreak : ['\n'] ∈ [[],['\n']] := by simp
  induction xs generalizing p with
  | nil =>
    have hend := lined_flushed hp .nil
    rwa [List.append_nil] at hend
  | cons x xs ih =>
    obtain ⟨hx,hxs⟩ := List.forall_mem_cons.mp hpieces
    have hrest := fun {p} => ih hxs hchain.tail (p:=p)
    rw [intersperse_cons]
    rcases hx with hx | ⟨t,ht,rfl⟩
    · have hbehind : Lined xs (Node.rereadAll [] none (linesBehind xs)) := by
        cases xs with
        | nil => exact .nil
        | cons y ys => exact hrest hbreak
      have hread : Node.rereadAll [] (pending p) (x::linesBehind xs) =
          flushed [] (pending p) ++ x.reread []::Node.rereadAll [] none (linesBehind xs) := by
        simp only [Node.rereadAll,hx]
      rw [hread]
      exact lined_flushed hp (.marked hx hbehind)
    · have hread : Node.rereadAll [] (pending p) (.text .shown t::linesBehind xs) =
          Node.rereadAll [] (some (p ++ t)) (linesBehind xs) := by
        rw [← held_pending p ht]
        rfl
      rw [hread]
      cases xs with
      | nil =>
        have htext := Lined.text (t:=t) hp hnone .nil
        rwa [List.append_nil] at htext
      | cons y ys =>
        -- a text takes the break behind it along, and no other text follows
        have hy : y.plain? = none := (List.isChain_cons_cons.mp hchain).1.resolve_left (nomatch ·)
        have htake : Node.rereadAll [] (some (p ++ t)) (linesBehind (y::ys)) =
            Node.rereadAll [] (some (p ++ t ++ ['\n'])) ((y::ys).intersperse newline) := rfl
        have hhead : ∀ n ∈ ((y::ys).intersperse newline).head?, n.plain? = none := by
          intro n hn
          rw [intersperse_cons] at hn
          cases hn
          exact hy
        rw [htake,rereadAll_some hhead,flushed_some]
        exact .text hp hbreak (hrest hnone)

end Page
end Longform
