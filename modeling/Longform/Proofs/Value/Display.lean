import Longform.Proofs.Decimal.Whole
import Longform.Proofs.Outcome
import Longform.Value.Display

/-! Why a value has no text: somewhere in it a collection holds itself, a number has too many figures, or a
mapping has a key that has no text, or its collections lie too deep in each other. Every other value can be
written. -/
namespace Longform
namespace Value

/-- The first value is the second one or lies in it. -/
inductive Within : Value → Value → Prop
  | self {v} : Within v v
  | item {u x xs} : x ∈ xs → Within u x → Within u (.list xs)
  | member {u x ms} : x ∈ ms → Within u x → Within u (.set ms)
  | key {u k v es} : (k,v) ∈ es → Within u k → Within u (.map es)
  | entry {u k v es} : (k,v) ∈ es → Within u v → Within u (.map es)

/-- Why a value has no text where `room` levels of collections may lie in each other. -/
inductive NoText (room : Nat) (v : Value) : Fault → Prop
  | key {es k w} : Within (.map es) v → (k,w) ∈ es → jsonKey k = .error .keyKind →
      NoText room v .keyKind
  | number {n} : Within (.int n) v → Decimal.mostFigures < (Text.ofNat n.natAbs).length →
      NoText room v .longNumber
  | circular {mapping} : Within (.cycle mapping) v → NoText room v .circular
  | descent : Within (.cycle false) v → NoText room v .descent
  | deep : room < v.depth → NoText room v .descent

section Depth

variable {v : Value}

theorem depth_le_depthOfItems {xs : List Value} (h : v ∈ xs) : v.depth ≤ depthOfItems xs := by
  induction xs with
  | nil => cases h
  | cons x xs ih =>
    rw [depthOfItems]
    rcases List.mem_cons.mp h with rfl | h
    · exact Nat.le_max_left _ _
    · exact Nat.le_trans (ih h) (Nat.le_max_right _ _)

theorem depth_le_depthOfEntries {k : Value} {es : List (Value × Value)} (h : (k,v) ∈ es) :
    v.depth ≤ depthOfEntries es := by
  induction es with
  | nil => cases h
  | cons entry es ih =>
    obtain ⟨k',w⟩ := entry
    rw [depthOfEntries]
    rcases List.mem_cons.mp h with h | h
    · cases h
      exact Nat.le_max_left _ _
    · exact Nat.le_trans (ih h) (Nat.le_max_right _ _)

end Depth

section Long

mutual
/-- Where a value holds a number that is too long. -/
theorem exists_of_holdsLong {v : Value} (h : v.holdsLong = true) :
    ∃ n, Within (.int n) v ∧ Decimal.mostFigures < (Text.ofNat n.natAbs).length := by
  cases v with
  | int n => exact ⟨n,.self,of_decide_eq_true h⟩
  | list xs =>
    obtain ⟨x,hx,n,hn,hlong⟩ := exists_of_anyHoldsLong h
    exact ⟨n,.item hx hn,hlong⟩
  | set ms =>
    obtain ⟨x,hx,n,hn,hlong⟩ := exists_of_anyHoldsLong h
    exact ⟨n,.member hx hn,hlong⟩
  | map es =>
    obtain ⟨k,w,hmem,n,hn,hlong⟩ := exists_of_entriesHoldLong h
    exact ⟨n,hn.elim (.key hmem) (.entry hmem),hlong⟩
  | _ => cases h

theorem exists_of_anyHoldsLong {xs : List Value} (h : anyHoldsLong xs = true) :
    ∃ x ∈ xs, ∃ n, Within (.int n) x ∧ Decimal.mostFigures < (Text.ofNat n.natAbs).length := by
  match xs with
  | [] => cases h
  | x::xs =>
    rcases Bool.or_eq_true_iff.mp h with h | h
    · exact ⟨x,by simp,exists_of_holdsLong h⟩
    · obtain ⟨y,hy,hlong⟩ := exists_of_anyHoldsLong h
      exact ⟨y,List.mem_cons_of_mem _ hy,hlong⟩

theorem exists_of_entriesHoldLong {es : List (Value × Value)} (h : entriesHoldLong es = true) :
    ∃ k w, (k,w) ∈ es ∧ ∃ n, (Within (.int n) k ∨ Within (.int n) w) ∧
      Decimal.mostFigures < (Text.ofNat n.natAbs).length := by
  match es with
  | [] => cases h
  | (k,w)::es =>
    rw [entriesHoldLong,Bool.or_eq_true,Bool.or_eq_true] at h
    rcases h with (h | h) | h
    · obtain ⟨n,hn,hlong⟩ := exists_of_holdsLong h
      exact ⟨k,w,by simp,n,.inl hn,hlong⟩
    · obtain ⟨n,hn,hlong⟩ := exists_of_holdsLong h
      exact ⟨k,w,by simp,n,.inr hn,hlong⟩
    · obtain ⟨k',w',hmem,hlong⟩ := exists_of_entriesHoldLong h
      exact ⟨k',w',List.mem_cons_of_mem _ hmem,hlong⟩
end

end Long

section Display

variable {l : JsonLayout} {e : Fault} {room : Nat}

/-- What keeps a value from being written keeps those that it lies in from it. -/
theorem NoText.within {r : Nat} {u v : Value} (hu : NoText r u e)
    (h : ∀ {w}, Within w u → Within w v) (hdeep : r < u.depth → room < v.depth) : NoText room v e := by
  cases hu with
  | key hes hk hkey => exact .key (h hes) hk hkey
  | number hn hlong => exact .number (h hn) hlong
  | circular hcycle => exact .circular (h hcycle)
  | descent hcycle => exact .descent (h hcycle)
  | deep hroom => exact .deep (hdeep hroom)

theorem noText_of_plain? {v : Value} (h : v.plain? = .error e) : NoText room v e := by
  unfold plain? at h
  split at h
  · cases h
    obtain ⟨n,hn,hlong⟩ := exists_of_holdsLong ‹_›
    exact .number hn hlong
  · cases h

theorem descend_error (h : descend room = .error e) : room = 0 ∧ e = .descent := by
  cases room with
  | zero =>
    cases h
    exact ⟨rfl,rfl⟩
  | succ room => cases h

theorem descend_ok {r : Nat} (h : descend room = .ok r) : room = r + 1 := by
  cases room with
  | zero => cases h
  | succ room =>
    cases h
    rfl

/-- A list that there is no room for, or with an item that has no text one level down. -/
theorem noText_of_list {xs : List Value} (h : descend room = .error e ∨
    ∃ r, descend room = .ok r ∧ ∃ x ∈ xs, NoText r x e) : NoText room (.list xs) e := by
  rcases h with h | ⟨r,hr,x,hx,hnone⟩
  · obtain ⟨rfl,rfl⟩ := descend_error h
    exact .deep (Nat.succ_pos _)
  · obtain rfl := descend_ok hr
    refine hnone.within (.item hx) fun hroom => ?_
    exact Nat.succ_lt_succ (Nat.lt_of_lt_of_le hroom (depth_le_depthOfItems hx))

theorem noText_of_map {es : List (Value × Value)} (h : descend room = .error e ∨
    ∃ r, descend room = .ok r ∧ ∃ k w, (k,w) ∈ es ∧ (jsonKey k = .error e ∨ NoText r w e)) :
    NoText room (.map es) e := by
  rcases h with h | ⟨r,hr,k,w,hmem,hkey | hnone⟩
  · obtain ⟨rfl,rfl⟩ := descend_error h
    exact .deep (Nat.succ_pos _)
  · cases k with
    | int n =>
      obtain ⟨hlong,rfl⟩ := Decimal.write_error hkey
      exact .number (.key hmem .self) hlong
    | null => cases hkey
    | bool _ => cases hkey
    | float _ => cases hkey
    | text _ => cases hkey
    | _ =>
      cases hkey
      exact .key .self hmem rfl
  · obtain rfl := descend_ok hr
    refine hnone.within (.entry hmem) fun hroom => ?_
    exact Nat.succ_lt_succ (Nat.lt_of_lt_of_le hroom (depth_le_depthOfEntries hmem))

mutual
theorem noText_of_json {room depth : Nat} {v : Value} (h : json l room depth v = .error e) :
    NoText room v e := by
  cases v with
  | int n =>
    obtain ⟨hlong,rfl⟩ := Decimal.write_error h
    exact .number .self hlong
  | list xs =>
    cases xs with
    | nil =>
      rcases bind_eq_error_iff.mp h with h | ⟨_,_,h⟩
      · exact noText_of_list (.inl h)
      · cases h
    | cons x xs =>
      rw [json] at h
      rcases bind_eq_error_iff.mp h with h | ⟨r,hr,h⟩
      · exact noText_of_list (.inl h)
      rcases bind_eq_error_iff.mp h with h | ⟨_,_,h⟩
      · exact noText_of_list (.inr ⟨r,hr,noText_of_jsonItems h⟩)
      · cases h
  | map es =>
    cases es with
    | nil =>
      rcases bind_eq_error_iff.mp h with h | ⟨_,_,h⟩
      · exact noText_of_map (.inl h)
      · cases h
    | cons entry es =>
      rw [json] at h
      rcases bind_eq_error_iff.mp h with h | ⟨r,hr,h⟩
      · exact noText_of_map (.inl h)
      rcases bind_eq_error_iff.mp h with h | ⟨_,_,h⟩
      · exact noText_of_map (.inr ⟨r,hr,noText_of_jsonEntries h⟩)
      · cases h
  | set ms => exact noText_of_plain? (map_eq_error_iff.mp h)
  | cycle mapping =>
    cases h
    exact .circular .self
  | _ => cases h

theorem noText_of_jsonItems {room depth : Nat} {xs : List Value}
    (h : jsonItems l room depth xs = .error e) : ∃ x ∈ xs, NoText room x e := by
  match xs with
  | [] => cases h
  | [x] => exact ⟨x,by simp,noText_of_json h⟩
  | x::y::r =>
    rw [jsonItems] at h
    rcases bind_eq_error_iff.mp h with h | ⟨_,_,h⟩
    · exact ⟨x,by simp,noText_of_json h⟩
    rcases bind_eq_error_iff.mp h with h | ⟨_,_,h⟩
    · obtain ⟨z,hz,hnone⟩ := noText_of_jsonItems h
      exact ⟨z,List.mem_cons_of_mem _ hz,hnone⟩
    · cases h

theorem noText_of_jsonEntries {room depth : Nat} {es : List (Value × Value)}
    (h : jsonEntries l room depth es = .error e) :
    ∃ k w, (k,w) ∈ es ∧ (jsonKey k = .error e ∨ NoText room w e) := by
  match es with
  | [] => cases h
  | [(k,v)] =>
    rw [jsonEntries] at h
    rcases bind_eq_error_iff.mp h with h | ⟨_,_,h⟩
    · exact ⟨k,v,by simp,.inl h⟩
    rcases bind_eq_error_iff.mp h with h | ⟨_,_,h⟩
    · exact ⟨k,v,by simp,.inr (noText_of_json h)⟩
    · cases h
  | (k,v)::entry::r =>
    rw [jsonEntries] at h
    rcases bind_eq_error_iff.mp h with h | ⟨_,_,h⟩
    · exact ⟨k,v,by simp,.inl h⟩
    rcases bind_eq_error_iff.mp h with h | ⟨_,_,h⟩
    · exact ⟨k,v,by simp,.inr (noText_of_json h)⟩
    rcases bind_eq_error_iff.mp h with h | ⟨_,_,h⟩
    · obtain ⟨k',w,hw,hnone⟩ := noText_of_jsonEntries h
      exact ⟨k',w,List.mem_cons_of_mem _ hw,hnone⟩
    · cases h
end

mutual
/-- Only what is named keeps a value from being written. -/
theorem noText_of_stringify {room : Nat} {v : Value} (h : stringify room v = .error e) :
    NoText room v e := by
  cases v with
  | list xs =>
    rw [stringify] at h
    rcases bind_eq_error_iff.mp h with h | ⟨r,hr,h⟩
    · exact noText_of_list (.inl h)
    · exact noText_of_list (.inr ⟨r,hr,noText_of_stringifyItems h⟩)
  | map es => exact noText_of_json h
  | cycle mapping =>
    cases mapping <;> cases h
    · exact .descent .self
    · exact .circular .self
  | null => cases h
  | bool _ => cases h
  | _ => exact noText_of_plain? h

theorem noText_of_stringifyItems {room : Nat} {xs : List Value}
    (h : stringifyItems room xs = .error e) : ∃ x ∈ xs, NoText room x e := by
  match xs with
  | [] => cases h
  | [x] => exact ⟨x,by simp,noText_of_stringify h⟩
  | x::y::r =>
    rw [stringifyItems] at h
    rcases bind_eq_error_iff.mp h with h | ⟨_,_,h⟩
    · exact ⟨x,by simp,noText_of_stringify h⟩
    rcases bind_eq_error_iff.mp h with h | ⟨_,_,h⟩
    · obtain ⟨z,hz,hnone⟩ := noText_of_stringifyItems h
      exact ⟨z,List.mem_cons_of_mem _ hz,hnone⟩
    · cases h
end

end Display

end Value
end Longform
