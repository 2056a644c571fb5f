import Mathlib.Data.List.Forall2
import Longform.Compile

/-! The outcome of a computation, whatever has been noted before it. Outcomes follow the steps: each
hands its value on, and the first fault ends the run. -/
namespace Longform

section Except

variable {α β : Type} {x : Except Fault α} {f : α → Except Fault β} {e : Fault}

theorem bind_eq_ok_iff {b : β} : x >>= f = .ok b ↔ ∃ a, x = .ok a ∧ f a = .ok b := by
  cases x <;> simp [bind,Except.bind]

theorem bind_eq_error_iff : x >>= f = .error e ↔ x = .error e ∨ ∃ a, x = .ok a ∧ f a = .error e := by
  cases x <;> simp [bind,Except.bind]

theorem map_eq_ok_iff {g : α → β} {b : β} : x.map g = .ok b ↔ ∃ a, x = .ok a ∧ g a = b := by
  cases x <;> simp [Except.map]

theorem map_eq_error_iff {g : α → β} : x.map g = .error e ↔ x = .error e := by
  cases x <;> simp [Except.map]

theorem bind_congr_ok {g : α → Except Fault β} (h : ∀ a, x = .ok a → f a = g a) : x >>= f = x >>= g := by
  cases x with
  | error e => rfl
  | ok a => exact h a rfl

theorem error_of_ite {c : Prop} [Decidable c] {a : α} (h : (if c then .ok a else x) = .error e) :
    x = .error e := by
  split at h
  · cases h
  · exact h

/-- Two computations that end in the same fault, or in values that belong together. -/
def Both (R : α → β → Prop) (x : Except Fault α) (y : Except Fault β) : Prop :=
  (∃ e, x = .error e ∧ y = .error e) ∨ ∃ a b, x = .ok a ∧ y = .ok b ∧ R a b

theorem both_error {R : α → β → Prop} (e : Fault) : Both R (.error e) (.error e) := .inl ⟨e,rfl,rfl⟩

theorem both_ok {R : α → β → Prop} {a : α} {b : β} (h : R a b) : Both R (.ok a) (.ok b) :=
  .inr ⟨a,b,rfl,rfl,h⟩

theorem Both.mono {R S : α → β → Prop} {x : Except Fault α} {y : Except Fault β} (h : Both R x y)
    (hsub : ∀ a b, R a b → S a b) : Both S x y :=
  h.imp id fun ⟨a,b,hx,hy,hab⟩ => ⟨a,b,hx,hy,hsub a b hab⟩

theorem Both.exists_right {R : α → β → Prop} {x : Except Fault α} {y : Except Fault β} {a : α}
    (h : Both R x y) (hx : x = .ok a) : ∃ b, y = .ok b ∧ R a b := by
  rcases h with ⟨e,hx',-⟩ | ⟨a',b,hx',hy,hab⟩
  · cases hx.symm.trans hx'
  · cases hx.symm.trans hx'
    exact ⟨b,hy,hab⟩

theorem Both.exists_left {R : α → β → Prop} {x : Except Fault α} {y : Except Fault β} {b : β}
    (h : Both R x y) (hy : y = .ok b) : ∃ a, x = .ok a ∧ R a b := by
  rcases h with ⟨e,-,hy'⟩ | ⟨a,b',hx,hy',hab⟩
  · cases hy.symm.trans hy'
  · cases hy.symm.trans hy'
    exact ⟨a,hx,hab⟩

theorem exists_of_mapM_error {l : List α} (h : l.mapM f = .error e) : ∃ a ∈ l, f a = .error e := by
  induction l with
  | nil => exact nomatch h
  | cons a l ih =>
    rw [List.mapM_cons,bind_eq_error_iff] at h
    rcases h with ha | ⟨b,_,h⟩
    · exact ⟨a,by simp,ha⟩
    rcases bind_eq_error_iff.mp h with hl | ⟨bs,_,h⟩
    · obtain ⟨x,hx,he⟩ := ih hl
      exact ⟨x,by simp [hx],he⟩
    · exact nomatch h

/-- The first value that fails is the fault of all. -/
theorem exists_first_of_mapM_error {l : List α} (h : l.mapM f = .error e) :
    ∃ before a behind bs, l = before ++ a::behind ∧ before.mapM f = .ok bs ∧ f a = .error e := by
  induction l with
  | nil => exact nomatch h
  | cons a l ih =>
    rw [List.mapM_cons,bind_eq_error_iff] at h
    rcases h with ha | ⟨b,hb,h⟩
    · exact ⟨[],a,l,[],rfl,rfl,ha⟩
    rcases bind_eq_error_iff.mp h with hl | ⟨bs,_,h⟩
    · obtain ⟨before,x,behind,bs,rfl,hbs,hx⟩ := ih hl
      exact ⟨a::before,x,behind,b::bs,rfl,by rw [List.mapM_cons,hb,hbs]; rfl,hx⟩
    · exact nomatch h

theorem exists_of_mem_mapM {l : List α} {bs : List β} (h : l.mapM f = .ok bs) :
    ∀ b ∈ bs, ∃ a ∈ l, f a = .ok b := by
  induction l generalizing bs with
  | nil =>
    cases h
    simp
  | cons a l ih =>
    rw [List.mapM_cons] at h
    obtain ⟨b,hb,h⟩ := bind_eq_ok_iff.mp h
    obtain ⟨bs',hbs,h⟩ := bind_eq_ok_iff.mp h
    cases h
    refine List.forall_mem_cons.mpr ⟨⟨a,by simp,hb⟩,fun b' hb' => ?_⟩
    obtain ⟨a',ha',hfa⟩ := ih hbs b' hb'
    exact ⟨a',by simp [ha'],hfa⟩

theorem exists_append_of_forall₂ {R : α → β → Prop} {xs xs' : List α} {ys : List β}
    (h : List.Forall₂ R (xs ++ xs') ys) :
    ∃ zs zs', ys = zs ++ zs' ∧ List.Forall₂ R xs zs ∧ List.Forall₂ R xs' zs' :=
  ⟨ys.take xs.length,ys.drop xs.length,(List.take_append_drop _ _).symm,
    List.forall₂_take_append ys xs xs' h.flip |>.flip,List.forall₂_drop_append ys xs xs' h.flip |>.flip⟩

/-- What two steps do to corresponding values, the second of them over a whole list. -/
theorem forall₂_mapM {α β γ : Type} {R : α → β → Prop} {S : α → γ → Prop} {g : β → Except Fault γ}
    (h : ∀ x y z, R x y → g y = .ok z → S x z) {xs : List α} {ys : List β} {zs : List γ}
    (hxs : List.Forall₂ R xs ys) (hzs : ys.mapM g = .ok zs) : List.Forall₂ S xs zs := by
  induction hxs generalizing zs with
  | nil =>
    cases hzs
    exact .nil
  | cons hx _ ih =>
    rw [List.mapM_cons] at hzs
    obtain ⟨z,hz,hzs⟩ := bind_eq_ok_iff.mp hzs
    obtain ⟨ws,hws,hzs⟩ := bind_eq_ok_iff.mp hzs
    cases hzs
    exact .cons (h _ _ _ hx hz) (ih hws)

end Except

namespace Compile

variable {α β : Type}

/-- The computation comes to `r` after any notices. -/
def Gives (c : Compile α) (r : Except Fault α) : Prop :=
  ∀ ns : List Notice, (StateT.run (ExceptT.run c) ns).1 = r

theorem Gives.unique {c : Compile α} {r s : Except Fault α} (hr : c.Gives r) (hs : c.Gives s) :
    r = s := (hr []).symm.trans (hs [])

theorem gives_pure (a : α) : (pure a : Compile α).Gives (.ok a) := fun _ => rfl

theorem gives_ofExcept {e r : Except Fault α} (h : e = r) : (ofExcept e).Gives r := fun _ => h

theorem gives_note (n : Notice) : (note n).Gives (.ok ()) := fun _ => rfl

theorem Gives.bind {c : Compile α} {f : α → Compile β} {r : Except Fault α}
    {g : α → Except Fault β} (hc : c.Gives r) (hf : ∀ a, r = .ok a → (f a).Gives (g a)) :
    (c >>= f).Gives (r >>= g) := by
  intro ns
  have h := hc ns
  rw [ExceptT.run_bind,StateT.run_bind]
  rcases hp : StateT.run (ExceptT.run c) ns with ⟨v,ns'⟩
  rw [hp] at h
  simp only at h
  subst h
  cases v with
  | error e => rfl
  | ok a => exact hf a rfl ns'

theorem Gives.bind_ok {c : Compile α} {f : α → Compile β} {a : α} {r : Except Fault β}
    (hc : c.Gives (.ok a)) (hf : (f a).Gives r) : (c >>= f).Gives r := by
  refine Gives.bind (g:=fun _ => r) hc fun b hb => ?_
  cases hb
  exact hf

theorem Gives.bind_error {c : Compile α} {f : α → Compile β} {e : Fault}
    (hc : c.Gives (.error e)) : (c >>= f).Gives (.error e) :=
  Gives.bind (g:=fun _ => .error e) hc fun _ h => nomatch h

/-- The computation comes to a value that satisfies `post`, or to a fault that has a cause. -/
def Ends (c : Compile α) (post : α → Prop) (cause : Fault → Prop) : Prop :=
  (∃ a, c.Gives (.ok a) ∧ post a) ∨ ∃ e, c.Gives (.error e) ∧ cause e

section Ends

variable {c : Compile α} {f : α → Compile β} {P : α → Prop} {Q : β → Prop} {cause : Fault → Prop}

theorem ends_pure {b : β} (h : Q b) : (pure b : Compile β).Ends Q cause :=
  .inl ⟨b,gives_pure b,h⟩

theorem ends_ofExcept {x : Except Fault β} (hok : ∀ b, x = .ok b → Q b)
    (herror : ∀ e, x = .error e → cause e) : (ofExcept x).Ends Q cause := by
  cases x with
  | error e => exact .inr ⟨e,gives_ofExcept rfl,herror e rfl⟩
  | ok b => exact .inl ⟨b,gives_ofExcept rfl,hok b rfl⟩

theorem Ends.bind (hc : c.Ends P cause)
    (hf : ∀ a, c.Gives (.ok a) → P a → (f a).Ends Q cause) : (c >>= f).Ends Q cause := by
  rcases hc with ⟨a,hgives,ha⟩ | ⟨e,hgives,he⟩
  · rcases hf a hgives ha with ⟨b,hb,hpost⟩ | ⟨e,hb,he⟩
    · exact .inl ⟨b,hgives.bind_ok hb,hpost⟩
    · exact .inr ⟨e,hgives.bind_ok hb,he⟩
  · exact .inr ⟨e,hgives.bind_error,he⟩

theorem Ends.of_ok {a : α} (hc : c.Gives (.ok a)) (hf : (f a).Ends Q cause) :
    (c >>= f).Ends Q cause :=
  hf.imp (fun ⟨b,hb,hpost⟩ => ⟨b,hc.bind_ok hb,hpost⟩) fun ⟨e,he,hcause⟩ => ⟨e,hc.bind_ok he,hcause⟩

theorem Ends.mono {P' : α → Prop} {cause' : Fault → Prop} (h : c.Ends P cause)
    (hpost : ∀ a, P a → P' a) (hcause : ∀ e, cause e → cause' e) : c.Ends P' cause' :=
  h.imp (fun ⟨a,hgives,ha⟩ => ⟨a,hgives,hpost a ha⟩) fun ⟨e,hgives,he⟩ => ⟨e,hgives,hcause e he⟩

/-- Computations one after the other, of which each ends. -/
theorem ends_mapM {l : List α} (h : ∀ a ∈ l, (f a).Ends Q cause) :
    (l.mapM f).Ends (fun bs => ∀ b ∈ bs, Q b) cause := by
  induction l with
  | nil => exact ends_pure (by simp)
  | cons a l ih =>
    rw [List.mapM_cons]
    refine (h a (by simp)).bind fun b _ hb => ?_
    refine (ih fun a' ha' => h a' (by simp [ha'])).bind fun bs _ hbs => ?_
    exact ends_pure (List.forall_mem_cons.mpr ⟨hb,hbs⟩)

end Ends
end Compile
end Longform
