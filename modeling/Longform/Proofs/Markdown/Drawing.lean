import Longform.Markdown.Render
import Longform.Proofs.Abbreviation.Settled
import Longform.Proofs.Value.Display

/-! What rendering does with blocks in a language of their own. A block that cannot be read is shown
as code; only a chart with a value that cannot be made or written stops the rendering. -/
namespace Longform

namespace Chart

/-- Why a chart is neither drawn nor shown as code. -/
inductive Obstacle (room : Nat) (source : Text) : Fault → Prop
  | settings {e} : Yaml.read room (Text.trim source) = .error (.refused e) → Obstacle room source e
  | value {settings name v e} : read room source = .ok settings →
      name ∈ "data".toList::attributeNames → setting? settings name = some v → v.NoText room e →
      Obstacle room source e

variable {room : Nat} {source : Text} {settings : List (Value × Value)} {names : List Text} {e : Fault}

theorem read_error (h : read room source = .error e) :
    Markdown.isUndecodable e = true ∨ Yaml.read room (Text.trim source) = .error (.refused e) := by
  unfold read at h
  split at h
  · cases h
    exact .inl rfl
  · cases h
    exact .inr ‹_›
  · cases h
  · cases h
    exact .inl rfl

theorem attributes_error (h : attributes room settings names = .error e) :
    ∃ name ∈ names, ∃ v, setting? settings name = some v ∧ v.NoText room e := by
  induction names with
  | nil => cases h
  | cons name names ih =>
    have hrest : attributes room settings names = .error e →
        ∃ n ∈ name::names, ∃ v, setting? settings n = some v ∧ v.NoText room e := fun h => by
      obtain ⟨n,hn,hv⟩ := ih h
      exact ⟨n,List.mem_cons_of_mem _ hn,hv⟩
    rw [attributes] at h
    split at h
    · exact hrest h
    rename_i v hv
    rcases bind_eq_error_iff.mp h with h | ⟨_,_,h⟩
    · exact ⟨name,List.mem_cons_self,v,hv,Value.noText_of_stringify h⟩
    rcases bind_eq_error_iff.mp h with h | ⟨_,_,h⟩
    · exact hrest h
    · cases h

theorem content_error (h : content room settings = .error e) :
    ∃ v, setting? settings "data".toList = some v ∧ v.NoText room e := by
  unfold content at h
  split at h
  · cases h
  rename_i v hv
  exact ⟨v,hv,Value.noText_of_json (map_eq_error_iff.mp h)⟩

theorem draw_error (h : (read room source).bind (markup room) = .error e) :
    Markdown.isUndecodable e = true ∨ Obstacle room source e := by
  rcases bind_eq_error_iff.mp h with h | ⟨settings,hread,h⟩
  · exact (read_error h).imp_right .settings
  rcases bind_eq_error_iff.mp h with h | ⟨_,_,h⟩
  · obtain ⟨name,hname,v,hv,he⟩ := attributes_error h
    exact .inr (.value hread (List.mem_cons_of_mem _ hname) hv he)
  rcases bind_eq_error_iff.mp h with h | ⟨_,_,h⟩
  · obtain ⟨v,hv,he⟩ := content_error h
    exact .inr (.value hread List.mem_cons_self hv he)
  · cases h

end Chart

namespace Markdown

variable {room : Nat} {t u : Token} {ts : List Token} {e : Fault}

/-- The token is a chart block, and something stops it from being drawn or shown as code. -/
def Undrawable (room : Nat) (t : Token) (e : Fault) : Prop :=
  t.kind = "fence" ∧ Text.trim t.info = "chart".toList ∧ Chart.Obstacle room t.content e

theorem drawing?_error (h : drawing? room t = some (.error e)) :
    isUndecodable e = true ∨ Text.trim t.info = "chart".toList ∧ Chart.Obstacle room t.content e := by
  unfold drawing? at h
  simp only at h
  split at h
  · exact (Chart.draw_error (Option.some.inj h)).imp_right fun hstops => ⟨‹_›,hstops⟩
  split at h
  · rcases hread : Network.Block.read t.content with e' | b <;> rw [hread] at h <;> cases h
    unfold Network.Block.read at hread
    simp only at hread
    split at hread <;> cases hread
    exact .inl rfl
  split at h <;> cases h

/-- A block is drawn as its language says, or else shown as code. -/
theorem fenceMarkup_ends (hk : t.kind = "fence") : (fenceMarkup room t).Ends
    (fun x => drawing? room t = some (.ok x) ∨
      (∀ y, drawing? room t ≠ some (.ok y)) ∧ x = fenceAsCode t)
    (Undrawable room t) := by
  unfold fenceMarkup
  rcases hdrawing : drawing? room t with _ | e | drawn
  · exact Compile.ends_pure (.inr ⟨by simp,rfl⟩)
  · simp only
    split
    · exact .inl ⟨_,(Compile.gives_note _).bind_ok (Compile.gives_pure _),.inr ⟨by simp,rfl⟩⟩
    · exact .inr ⟨e,fun _ => rfl,hk,(drawing?_error hdrawing).resolve_left ‹_›⟩
  · exact Compile.ends_pure (.inl rfl)

theorem eachMarkup_ends {f : Option Token → Token → Option Token → Compile Text}
    {cause : Fault → Prop} (h : ∀ before next, ∀ t ∈ ts, (f before t next).Ends (fun _ => True) cause)
    (before : Option Token) : (eachMarkup f before ts).Ends (fun _ => True) cause := by
  induction ts generalizing before with
  | nil => exact Compile.ends_pure trivial
  | cons t ts ih =>
    rw [eachMarkup]
    refine (h before ts.head? t (by simp)).bind fun _ _ _ => ?_
    refine (ih (fun before next u hu => h before next u (by simp [hu])) _).bind fun _ _ _ => ?_
    exact Compile.ends_pure trivial

theorem tokenMarkup_ends (before next : Option Token) :
    (tokenMarkup room before t next).Ends (fun _ => True) (Undrawable room t) := by
  unfold tokenMarkup
  split
  · exact (fenceMarkup_ends ‹_›).mono (fun _ _ => trivial) fun _ h => h
  · exact Compile.ends_pure trivial

/-- The token is one of a stream, or a child of one. -/
def OccursIn (u : Token) (ts : List Token) : Prop := u ∈ ts ∨ ∃ t ∈ ts, u ∈ t.children.getD []

theorem render_ends (room : Nat) (ts : List Token) :
    (render room ts).Ends (fun _ => True) fun e => ∃ u, OccursIn u ts ∧ Undrawable room u e := by
  refine eachMarkup_ends (fun before next t ht => ?_) none
  unfold blockMarkup
  split
  · refine eachMarkup_ends (fun before next u hu => ?_) none
    exact (tokenMarkup_ends before next).mono (fun _ h => h) fun _ h => ⟨u,.inr ⟨t,ht,hu⟩,h⟩
  · exact (tokenMarkup_ends before next).mono (fun _ h => h) fun _ h => ⟨t,.inl ht,h⟩

end Markdown

namespace Abbreviation

variable {expansions : Dictionary Text} {t u : Token} {cs ts : List Token}

theorem kind_ne_of_mem_cut {found : List (Nat × Text)} {pos : Nat} {s : Text}
    (h : u ∈ cut expansions pos s found) : u.kind ≠ "fence" := by
  have htext : "text" ≠ "fence" := by decide
  induction found generalizing pos s with
  | nil =>
    rw [cut] at h
    split at h
    · cases h
    · rwa [List.mem_singleton.mp h]
  | cons occurrence found ih =>
    rw [cut,List.mem_append,List.mem_append] at h
    rcases h with (h | h) | h
    · split at h
      · cases h
      · rwa [List.mem_singleton.mp h]
    · have hopen : "abbr_open" ≠ "fence" := by decide
      have hclose : "abbr_close" ≠ "fence" := by decide
      simp only [wrap,List.mem_cons,List.not_mem_nil,or_false] at h
      rcases h with rfl | rfl | rfl
      · exact hopen
      · exact htext
      · exact hclose
    · exact ih h

theorem mem_of_mem_replaceChildren {depth : Int} (hu : u.kind = "fence")
    (h : u ∈ replaceChildren expansions depth cs) : u ∈ cs := by
  induction cs generalizing depth with
  | nil => exact h
  | cons t cs ih =>
    rw [replaceChildren_cons] at h
    split at h
    · rcases List.mem_append.mp h with h | h
      · unfold splitToken at h
        split at h
        · exact List.mem_cons.mpr (.inl (List.mem_singleton.mp h))
        · exact absurd hu (kind_ne_of_mem_cut h)
      · exact List.mem_cons_of_mem _ (ih h)
    · rcases List.mem_cons.mp h with h | h
      · exact List.mem_cons.mpr (.inl h)
      · exact List.mem_cons_of_mem _ (ih h)

theorem kind_replaceToken : (replaceToken expansions t).kind = t.kind := by
  unfold replaceToken
  split <;> rfl

/-- Wrapping terms leaves all blocks in languages of their own. -/
theorem occursIn_of_replace (hu : u.kind = "fence")
    (h : Markdown.OccursIn u (replace expansions ts)) : Markdown.OccursIn u ts := by
  unfold replace at h
  split at h
  · exact h
  rcases h with h | ⟨_,h,hchild⟩ <;> obtain ⟨t,ht,rfl⟩ := List.mem_map.mp h
  · rw [kind_replaceToken] at hu
    have hvisible : t.isVisibleInline = false := by simp [Token.isVisibleInline,hu]
    rw [replaceToken,hvisible]
    exact .inl ht
  · refine .inr ⟨t,ht,?_⟩
    unfold replaceToken at hchild
    split at hchild
    · rcases hc : t.children with _ | cs
      · simp [hc] at hchild
      · rw [hc] at hchild
        exact mem_of_mem_replaceChildren hu hchild
    · exact hchild

end Abbreviation
end Longform
