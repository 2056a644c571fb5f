import Longform.Markdown.Block
import Longform.Proofs.Address
import Longform.Proofs.Outcome

/-! The two faults of reading blocks. A rule looks at a character where the text has ended: headings and
raw markup do so, and with them every block that asks what interrupts it. And the address of a definition
has halves that cannot be written as bytes. -/
namespace Longform.Markdown.Block

variable {s : State} {n start stop fuel : Nat} {e : Fault}

/-- What keeps blocks from being read. -/
def IsFault (e : Fault) : Prop := e = .position ∨ e = .encoding

section Lines

theorem headingAt?_error (h : headingAt? s n = .error e) : e = .position := by
  unfold headingAt? at h
  simp only at h
  split at h
  · cases h
  split at h
  · cases h
    rfl
  · split at h
    · cases h
    · split at h <;> cases h

theorem rawAt?_error (h : rawAt? s n = .error e) : e = .position := by
  unfold rawAt? at h
  split at h
  · cases h
  split at h <;> cases h
  rfl

theorem interruptsQuote_error (h : interruptsQuote s n = .error e) : e = .position := by
  unfold interruptsQuote at h
  split at h
  · cases h
  split at h
  · cases h
    exact rawAt?_error ‹_›
  split at h
  · cases h
  · rcases hh : headingAt? s n with e' | r <;> rw [hh] at h <;> cases h
    exact headingAt?_error hh

theorem interruptsText_error (h : interruptsText s n stop = .error e) : e = .position := by
  unfold interruptsText at h
  split at h
  · cases h
  · exact interruptsQuote_error h

end Lines

section Leaves

theorem rowsFrom_error {as : List Alignment} {completed : Int}
    (h : rowsFrom s as stop fuel n completed = .error e) : e = .position := by
  induction fuel generalizing n completed with
  | zero => cases h
  | succ fuel ih =>
    rw [rowsFrom] at h
    split at h
    · cases h
    split at h
    · cases h
      exact interruptsQuote_error ‹_›
    · cases h
    simp only at h
    split at h
    · cases h
    split at h <;> cases h
    exact ih ‹_›

theorem paragraphEnd_error (h : paragraphEnd s fuel n = .error e) : e = .position := by
  induction fuel generalizing n with
  | zero => cases h
  | succ fuel ih =>
    rw [paragraphEnd] at h
    split at h
    · cases h
    split at h
    · exact ih h
    split at h
    · cases h
      exact interruptsText_error ‹_›
    · cases h
    · exact ih h

theorem underlineFrom_error (h : underlineFrom s stop fuel n = .error e) : e = .position := by
  induction fuel generalizing n with
  | zero => cases h
  | succ fuel ih =>
    rw [underlineFrom] at h
    split at h
    · cases h
    split at h
    · exact ih h
    split at h
    · cases h
    split at h
    · exact ih h
    split at h
    · cases h
      exact interruptsText_error ‹_›
    · cases h
    · exact ih h

end Leaves

section Definitions

variable {g : Growing} {pos : Nat}

theorem grow?_error (h : g.grow? s = .error e) : e = .position := by
  unfold Growing.grow? at h
  simp only at h
  split at h
  · cases h
  split at h
  · cases h
  split at h <;> cases h
  exact interruptsText_error ‹_›

theorem growOrStay_error (h : g.growOrStay s = .error e) : e = .position := by
  unfold Growing.growOrStay at h
  rcases hg : g.grow? s with e' | r <;> rw [hg] at h <;> cases h
  exact grow?_error hg

theorem definedLabelEnd_error (h : definedLabelEnd s fuel g pos = .error e) : e = .position := by
  induction fuel generalizing g pos with
  | zero => cases h
  | succ fuel ih =>
    rw [definedLabelEnd] at h
    split at h
    · cases h
    · cases h
    · cases h
    · split at h
      · cases h
        exact growOrStay_error ‹_›
      · exact ih h
    · split at h
      · split at h
        · cases h
          exact growOrStay_error ‹_›
        · exact ih h
      · exact ih h
    · exact ih h

theorem skipGrowing_error (h : skipGrowing s fuel g pos = .error e) : e = .position := by
  induction fuel generalizing g pos with
  | zero => cases h
  | succ fuel ih =>
    rw [skipGrowing] at h
    split at h
    · split at h
      · cases h
        exact growOrStay_error ‹_›
      · exact ih h
    · split at h
      · exact ih h
      · cases h
    · cases h

theorem growingTitle_error {t : Title} (h : growingTitle s fuel g pos t = .error e) : e = .position := by
  induction fuel generalizing g pos t with
  | zero => cases h
  | succ fuel ih =>
    unfold growingTitle at h
    split at h
    · split at h
      · cases h
        exact grow?_error ‹_›
      · cases h
      · exact ih h
    · cases h

theorem readDefined_error {labelEnd : Nat} (h : readDefined s fuel g labelEnd = .error e) :
    IsFault e := by
  rcases bind_eq_error_iff.mp h with h | ⟨⟨pos,g⟩,_,h⟩
  · exact .inl (skipGrowing_error h)
  simp only at h
  split at h
  · cases h
  rcases bind_eq_error_iff.mp h with h | ⟨href,_,h⟩
  · exact .inr (Address.written_error h)
  split at h
  · cases h
  rcases bind_eq_error_iff.mp h with h | ⟨⟨pos,g⟩,_,h⟩
  · exact .inl (skipGrowing_error h)
  rcases bind_eq_error_iff.mp h with h | ⟨⟨t,pos,g⟩,_,h⟩
  · exact .inl (growingTitle_error h)
  · simp only at h
    split at h
    · cases h
    · split at h <;> cases h

theorem definition_error (h : definition s start stop = .error e) : IsFault e := by
  unfold definition at h
  simp only at h
  split at h
  · cases h
  rcases bind_eq_error_iff.mp h with h | ⟨⟨o,g⟩,_,h⟩
  · exact .inl (definedLabelEnd_error h)
  cases o with
  | none => cases h
  | some labelEnd =>
    simp only at h
    split at h
    · cases h
    rcases bind_eq_error_iff.mp h with h | ⟨d,_,h⟩
    · exact readDefined_error h
    · cases d <;> cases h

end Definitions

section Containers

variable {nested : Nested}

theorem quoteFrom_error {b : Bool} (h : quoteFrom stop fuel n b s = .error e) : e = .position := by
  induction fuel generalizing n b s with
  | zero => cases h
  | succ fuel ih =>
    rw [quoteFrom] at h
    simp only at h
    split at h
    · cases h
    split at h
    · exact ih h
    split at h
    · cases h
    split at h
    · cases h
      exact interruptsQuote_error ‹_›
    · cases h
    · exact ih h

/-- What is read from one line up to another has no fault but the two. -/
abbrev Faulty {α : Type} (reader : State → Nat → Nat → Except Fault α) : Prop :=
  ∀ s start stop e, reader s start stop = .error e → IsFault e

theorem readItem_error {ordered : Bool} {mark : Char} {markerEnd : Nat} {r : ListReading}
    (hnested : Faulty nested)
    (h : readItem nested ordered mark start stop markerEnd r = .error e) : IsFault e := by
  unfold readItem at h
  simp only at h
  split at h
  · rename_i hread
    cases h
    unfold itemBlocks at hread
    exact hnested _ _ _ _ (error_of_ite hread)
  · cases h

theorem itemsFrom_error {ordered : Bool} {mark : Char} {markerEnd : Nat} {r : ListReading}
    (hnested : Faulty nested)
    (h : itemsFrom nested ordered mark stop fuel start markerEnd r = .error e) : IsFault e := by
  induction fuel generalizing start markerEnd r with
  | zero => cases h
  | succ fuel ih =>
    rw [itemsFrom] at h
    split at h
    · cases h
      exact readItem_error hnested ‹_›
    simp only at h
    split at h
    · cases h
    split at h
    · exact ih h
    · cases h

theorem faulty_quote (hnested : Faulty nested) : Faulty (quote nested) := by
  intro s start stop e h
  unfold quote at h
  simp only at h
  split at h
  · cases h
  split at h
  · cases h
    exact .inl (quoteFrom_error ‹_›)
  split at h
  · cases h
    exact hnested _ _ _ _ ‹_›
  · cases h

theorem faulty_list (hnested : Faulty nested) : Faulty (list nested) := by
  intro s start stop e h
  unfold list at h
  simp only at h
  split at h
  · cases h
  split at h
  · cases h
  split at h
  · cases h
    exact itemsFrom_error hnested ‹_›
  · cases h

theorem faulty_aside (hnested : Faulty nested) : Faulty (aside nested) := by
  intro s start stop e h
  unfold aside at h
  simp only at h
  split at h
  · cases h
  split at h
  · cases h
    exact hnested _ _ _ _ ‹_›
  · cases h

end Containers

section Rules

variable {nested : Nested}

theorem faulty_table : Faulty table := by
  intro s start stop e h
  unfold table at h
  split at h
  · cases h
  split at h
  · cases h
    exact .inl (rowsFrom_error ‹_›)
  · cases h

theorem faulty_heading : Faulty heading := by
  intro s start stop e h
  unfold heading at h
  split at h
  · cases h
    exact .inl (headingAt?_error ‹_›)
  · cases h
  · cases h

theorem faulty_rawBlock : Faulty rawBlock := by
  intro s start stop e h
  unfold rawBlock at h
  split at h
  · cases h
    exact .inl (rawAt?_error ‹_›)
  · cases h
  · cases h

theorem faulty_underlined : Faulty underlined := by
  intro s start stop e h
  unfold underlined at h
  split at h
  · cases h
  split at h
  · cases h
    exact .inl (underlineFrom_error ‹_›)
  · cases h
  · cases h

theorem faulty_paragraph : Faulty paragraph := by
  intro s start stop e h
  unfold paragraph at h
  split at h
  · cases h
    exact .inl (paragraphEnd_error ‹_›)
  · cases h

theorem faulty_code : Faulty code := by
  intro s start stop e h
  unfold code at h
  split at h <;> cases h

theorem faulty_fence : Faulty fence := by
  intro s start stop e h
  unfold fence at h
  split at h <;> cases h

theorem faulty_thematicBreak : Faulty thematicBreak := by
  intro s start stop e h
  unfold thematicBreak at h
  split at h <;> cases h

theorem faulty_of_mem_rules (hnested : Faulty nested) {rule : Rule}
    (h : rule ∈ rules nested) : Faulty rule := by
  simp only [rules,List.mem_cons,List.not_mem_nil,or_false] at h
  rcases h with rfl | rfl | rfl | rfl | rfl | rfl | rfl | rfl | rfl | rfl | rfl | rfl
  · exact faulty_table
  · exact faulty_code
  · exact faulty_aside hnested
  · exact faulty_fence
  · exact faulty_quote hnested
  · exact faulty_thematicBreak
  · exact faulty_list hnested
  · exact fun _ _ _ _ => definition_error
  · exact faulty_rawBlock
  · exact faulty_heading
  · exact faulty_underlined
  · exact faulty_paragraph

theorem tryRules_error {rs : List Rule} (hrules : ∀ rule ∈ rs, Faulty rule)
    (h : tryRules start stop rs s = .error e) : IsFault e := by
  induction rs with
  | nil => cases h
  | cons rule rs ih =>
    rw [tryRules] at h
    split at h
    · cases h
      exact hrules rule (by simp) _ _ _ _ ‹_›
    · cases h
    · exact ih (fun r hr => hrules r (by simp [hr])) h

theorem blocksFrom_error {b : Bool} (hnested : Faulty nested)
    (h : blocksFrom nested stop fuel n b s = .error e) : IsFault e := by
  induction fuel generalizing n b s with
  | zero => cases h
  | succ fuel ih =>
    rw [blocksFrom] at h
    simp only at h
    split at h
    · cases h
    split at h
    · cases h
    split at h
    · cases h
    split at h
    · cases h
      exact tryRules_error (fun _ => faulty_of_mem_rules hnested) ‹_›
    split at h <;> exact ih h

/-- The depth to which blocks nest does not matter: by induction on it, no level adds a fault. -/
theorem faulty_read (depth : Nat) : Faulty (read depth) := by
  induction depth with
  | zero => exact fun _ _ _ _ h => nomatch h
  | succ depth ih => exact fun _ _ _ _ h => blocksFrom_error ih h

theorem parse_error {t : Text} (h : parse t = .error e) : IsFault e := by
  unfold parse at h
  split at h
  · cases h
  rcases hr : read (maxNesting + 2) (State.ofText t) 0 (State.ofText t).lineMax with e' | s <;>
    simp only [hr] at h <;> cases h
  exact faulty_read _ _ _ _ _ hr

end Rules
end Longform.Markdown.Block
