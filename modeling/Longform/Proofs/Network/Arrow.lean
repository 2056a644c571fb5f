import Longform.Network.Connection
import Longform.Proofs.Text.Search
import Longform.Proofs.Text.Trim

/-! Arrows as they are written. In full they are `-->`, `<--`, `-[label]->` and `<-[label]-`; what is
read as an arrow may want its second dash or its head, or have a head at both ends. -/
namespace Longform
namespace Network

/-- A label that brackets can hold. -/
def IsLabel (l : Text) : Prop := l ≠ [] ∧ ']' ∉ l

instance (l : Text) : Decidable (IsLabel l) := inferInstanceAs (Decidable (_ ∧ _))

namespace Arrow

def head (x : Arrow) : Text := if x.backward then ['<'] else []

/-- The label in its brackets. -/
def tag (x : Arrow) : Text := (x.label.map fun l => '[' :: (l ++ [']'])).getD []

/-- An arrow as it is written with some end. -/
def textWith (x : Arrow) (stop : Text) : Text := x.head ++ '-' :: (x.tag ++ stop)

/-- The end of an arrow in full. -/
def stop (x : Arrow) : Text := if x.backward then ['-'] else ['-','>']

def text (x : Arrow) : Text := x.textWith x.stop

/-- The arrow that points the other way. -/
def turn (x : Arrow) : Arrow := { x with backward := !x.backward }

@[simp] theorem isArrowEnd_stop (x : Arrow) : isArrowEnd x.stop = true := by
  unfold stop
  split <;> rfl

theorem bracket_not_mem_of_isArrowEnd {stop : Text} (h : isArrowEnd stop = true) : '[' ∉ stop := by
  simp only [isArrowEnd,Bool.or_eq_true,decide_eq_true_eq] at h
  rcases h with ((rfl | rfl) | rfl) | rfl <;> decide

theorem read?_textWith {x : Arrow} (hx : ∀ l ∈ x.label, IsLabel l) {stop : Text}
    (hstop : isArrowEnd stop = true) : read? (x.textWith stop) = some x := by
  obtain ⟨backward,label⟩ := x
  cases label with
  | none =>
    simp only [isArrowEnd,Bool.or_eq_true,decide_eq_true_eq] at hstop
    rcases hstop with ((rfl | rfl) | rfl) | rfl <;> cases backward <;> rfl
  | some l =>
    obtain ⟨hne,hclose⟩ := hx l rfl
    have hcut := Text.cutAt_append hclose stop
    cases backward <;> simp [textWith,head,tag,read?,hcut,hne,hstop]

/-- What is read as an arrow: a head or none, a dash, a label or none, and any end. -/
theorem read?_eq_some_iff {t : Text} {x : Arrow} : read? t = some x ↔
    (∀ l ∈ x.label, IsLabel l) ∧ ∃ stop, isArrowEnd stop = true ∧ t = x.textWith stop := by
  constructor
  · intro h
    -- the head is taken off first
    have hhead : t = (if t.head? = some '<' then ['<'] else []) ++
        (if t.head? = some '<' then t.tail else t) := by
      cases t with
      | nil => simp
      | cons c t => by_cases hc : c = '<' <;> simp [hc]
    simp only [read?] at h
    split at h
    · rename_i r hr
      split at h
      · rename_i l stop hcut
        obtain ⟨hl,hclose⟩ := Text.eq_append_of_cutAt hcut
        split at h
        · simp at h
        · rename_i hright
          simp only [Bool.or_eq_true,List.isEmpty_iff,Bool.not_eq_true',not_or] at hright
          cases h
          refine ⟨by simpa [IsLabel] using ⟨hright.1,hclose⟩,stop,by simpa using hright.2,?_⟩
          rw [hr,hl] at hhead
          simpa [textWith,head,tag] using hhead
      · simp at h
    · rename_i r _ hr
      split at h
      · rename_i hstop
        cases h
        refine ⟨by simp,r,hstop,?_⟩
        rw [hr] at hhead
        simpa [textWith,head,tag] using hhead
      · simp at h
    · simp at h
  · rintro ⟨hx,stop,hstop,rfl⟩
    exact read?_textWith hx hstop

theorem read?_text {x : Arrow} (hx : ∀ l ∈ x.label, IsLabel l) : read? x.text = some x :=
  read?_textWith hx (isArrowEnd_stop x)

/-- Nothing is trimmed off an arrow in full. -/
theorem trim_text (x : Arrow) : Text.trim x.text = x.text := by
  have hdash : Text.isBlank '-' = false := by decide
  obtain ⟨backward,label⟩ := x
  cases backward with
  | false =>
    have htrim := Text.trim_cons_append hdash (d := '>') (by decide) (tag ⟨false,label⟩ ++ ['-'])
    simpa [text,textWith,head,stop] using htrim
  | true =>
    have htrim := Text.trim_cons_append (c := '<') (by decide) hdash ('-' :: tag ⟨true,label⟩)
    simpa [text,textWith,head,stop] using htrim

/-- An operator in which a bracket stays open is no arrow. -/
theorem read?_eq_none_of_open {u v : Text} (hv : ']' ∉ v) : read? (u ++ '[' :: v) = none := by
  cases h : read? (u ++ '[' :: v) with
  | none => rfl
  | some x =>
    obtain ⟨backward,label⟩ := x
    obtain ⟨hx,stop,hstop,htext⟩ := read?_eq_some_iff.mp h
    have hnot := bracket_not_mem_of_isArrowEnd hstop
    cases label with
    | none =>
      have hmem : '[' ∈ textWith ⟨backward,none⟩ stop := by simp [← htext]
      cases backward <;> simp [textWith,head,tag,hnot] at hmem
    | some l =>
      -- the label is closed behind every opening bracket
      have hsplit : u ++ '[' :: v = (head ⟨backward,some l⟩ ++ '-' :: '[' :: l) ++ ']' :: stop := by
        simpa [textWith,tag] using htext
      rcases List.append_eq_append_iff.mp hsplit with ⟨w,-,hw⟩ | ⟨w,-,hw⟩
      · cases w with
        | nil => simp at hw
        | cons c w =>
          have hright : v = w ++ ']' :: stop := by simpa using (List.cons.inj hw).2
          simp [hright] at hv
      · cases w with
        | nil => simp at hw
        | cons c w =>
          have hright : stop = w ++ '[' :: v := by simpa using (List.cons.inj hw).2
          simp [hright] at hnot

end Arrow
end Network
end Longform
