import Longform.Text.Basic
import Mathlib.Data.List.Basic

/-! Texts with marks in them. A text is parted from left to right at every place where a mark begins, and
reading goes on behind the mark. Marks that are told apart by where they begin part a text in one way. -/
namespace Longform
namespace Text
variable {M : Type} (written : M → Text)

/-- A mark is where the text begins. -/
def BeginsMark (t : Text) : Prop := ∃ m s, t = written m ++ s

/-- A mark begins in a text. It may run on into what stands behind. -/
def MarkIn (t behind : Text) : Prop := ∃ a c b, t = a ++ c::b ∧ BeginsMark written (c::(b ++ behind))

/-- A whole mark stands in a text. -/
def HasMark (t : Text) : Prop := ∃ a m b, t = a ++ (written m ++ b)

/-- A text as plain pieces, each but the last with the mark behind it. No mark begins in a piece. -/
inductive Parted : Text → List (Text × M) → Text → Prop
  | last {t : Text} (plain : ¬MarkIn written t []) : Parted t [] t
  | mark {t s last : Text} {m : M} {ms : List (Text × M)}
      (plain : ¬MarkIn written t (written m ++ s)) (rest : Parted s ms last) :
      Parted (t ++ (written m ++ s)) ((t,m)::ms) last

/-- The plain pieces of a text. -/
def piecesOf (ms : List (Text × M)) (last : Text) : List Text := ms.map (·.1) ++ [last]

/-- Marks that are never empty and of which none begins where another one does. -/
structure Unambiguous : Prop where
  ne_nil : ∀ m, written m ≠ []
  eq_of_append : ∀ {m n r s}, written m ++ r = written n ++ s → m = n

variable {written} {t t' behind s s' last last' : Text} {m m' : M} {ms ms' : List (Text × M)} {c : Char}

theorem not_markIn_nil : ¬MarkIn written [] behind := by
  rintro ⟨a,c,b,h,-⟩
  cases a <;> cases h

theorem markIn_cons_iff : MarkIn written (c::t) behind ↔
    BeginsMark written (c::(t ++ behind)) ∨ MarkIn written t behind := by
  constructor
  · rintro ⟨a,d,b,h,hbegins⟩
    cases a with
    | nil =>
      cases h
      exact .inl hbegins
    | cons e a =>
      cases h
      exact .inr ⟨a,d,b,rfl,hbegins⟩
  · rintro (hbegins | ⟨a,d,b,rfl,hbegins⟩)
    · exact ⟨[],c,t,rfl,hbegins⟩
    · exact ⟨c::a,d,b,rfl,hbegins⟩

theorem HasMark.markIn (hne : ∀ m, written m ≠ []) (h : HasMark written t) :
    MarkIn written t behind := by
  obtain ⟨a,m,b,rfl⟩ := h
  obtain ⟨c,w,hw⟩ := List.exists_cons_of_ne_nil (hne m)
  refine ⟨a,c,w ++ b,by rw [hw,List.cons_append],m,b ++ behind,?_⟩
  rw [hw,List.cons_append,List.append_assoc]

theorem hasMark_of_markIn (h : MarkIn written t []) : HasMark written t := by
  obtain ⟨a,c,b,rfl,m,s,h⟩ := h
  rw [List.append_nil] at h
  exact ⟨a,m,s,by rw [h]⟩

/-- A character in front at which no mark begins belongs to the first piece. -/
theorem Parted.exists_cons (hnone : ¬BeginsMark written (c::t)) (h : Parted written t ms last) :
    ∃ ms' last', Parted written (c::t) ms' last' := by
  cases h with
  | last plain =>
    refine ⟨[],c::t,.last ?_⟩
    rw [markIn_cons_iff,List.append_nil]
    exact not_or_intro hnone plain
  | @mark p s _ m ms plain rest =>
    refine ⟨(c::p,m)::ms,last,.mark (t:=c::p) ?_ rest⟩
    rw [markIn_cons_iff]
    exact not_or_intro hnone plain

theorem exists_parted (hne : ∀ m, written m ≠ []) (t : Text) :
    ∃ ms last, Parted written t ms last := by
  by_cases hbegins : BeginsMark written t
  · obtain ⟨m,s,rfl⟩ := hbegins
    have hlt : s.length < (written m ++ s).length := by
      rw [List.length_append]
      exact Nat.lt_add_of_pos_left (List.length_pos_iff.mpr (hne m))
    obtain ⟨ms,last,hs⟩ := exists_parted hne s
    exact ⟨([],m)::ms,last,.mark not_markIn_nil hs⟩
  · cases t with
    | nil => exact ⟨[],[],.last not_markIn_nil⟩
    | cons c r =>
      obtain ⟨ms,last,hr⟩ := exists_parted hne r
      exact hr.exists_cons hbegins
termination_by t.length

/-- In front of a mark a plain piece reaches no farther than another one. -/
theorem length_le_of_not_markIn (h : ¬MarkIn written t' (written m' ++ s'))
    (heq : t ++ (written m ++ s) = t' ++ (written m' ++ s')) : t'.length ≤ t.length := by
  rcases List.append_eq_append_iff.mp heq with ⟨a,rfl,ha⟩ | ⟨a,rfl,-⟩
  · cases a with
    | nil => simp
    | cons c a => exact absurd ⟨t,c,a,rfl,m,s,ha.symm⟩ h
  · simp

theorem Parted.unique (hmarks : Unambiguous written) (h : Parted written t ms last)
    (h' : Parted written t ms' last') : ms' = ms ∧ last' = last := by
  have hwhole : ∀ {p m s}, MarkIn written (p ++ (written m ++ s)) [] := fun {p m s} =>
    HasMark.markIn hmarks.ne_nil ⟨p,m,s,rfl⟩
  induction h generalizing ms' last' with
  | @last t plain =>
    cases h' with
    | last _ => exact ⟨rfl,rfl⟩
    | mark _ _ => exact absurd hwhole plain
  | @mark t s last m ms plain rest ih =>
    generalize ht : t ++ (written m ++ s) = u at h'
    cases h' with
    | last plain' => exact absurd (ht ▸ hwhole) plain'
    | @mark t' s' _ m' ms' plain' rest' =>
      obtain ⟨rfl,hrest⟩ := List.append_inj ht (Nat.le_antisymm
        (length_le_of_not_markIn plain ht.symm) (length_le_of_not_markIn plain' ht))
      obtain rfl := hmarks.eq_of_append hrest
      obtain rfl := List.append_cancel_left hrest
      obtain ⟨rfl,rfl⟩ := ih rest'
      exact ⟨rfl,rfl⟩

/-- No mark stands in a piece. -/
theorem Parted.not_hasMark_of_mem (hne : ∀ m, written m ≠ []) (h : Parted written t ms last) :
    ∀ p ∈ piecesOf ms last, ¬HasMark written p := by
  induction h with
  | last plain =>
    intro p hp
    rw [List.mem_singleton.mp hp]
    exact fun hmark => plain (hmark.markIn hne)
  | mark plain _ ih => exact List.forall_mem_cons.mpr ⟨fun hmark => plain (hmark.markIn hne),ih⟩

end Text
end Longform
