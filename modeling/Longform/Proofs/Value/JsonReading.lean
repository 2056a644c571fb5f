import Longform.Proofs.Decimal.Whole
import Longform.Proofs.Text.Search
import Longform.Proofs.Value.Display
import Longform.Proofs.Value.JsonText

/-! Values in JSON. What is written of a value without blanks is read as that value, if it is made of null,
truth values, whole numbers, texts, lists and mappings of texts, and no text holds both halves of a pair
side by side. -/
namespace Longform
namespace Json

open Text

/-! The reader. It knows whole numbers only, and no blanks outside texts. -/

def isNumeral (c : Char) : Bool := c.isDigit || c = '-'

def number? (t : Text) : Option (Value × Text) :=
  (Decimal.integer? 10 (t.takeWhile isNumeral)).toOption.map fun n => (.int n,t.dropWhile isNumeral)

/-- Values that a word stands for. -/
def words : List (Text × Value) :=
  [("null".toList,.null),("true".toList,.bool true),("false".toList,.bool false)]

def word? (t : Text) : Option (Value × Text) :=
  words.findSome? fun (w,v) => (Text.after? w t).map (v,·)

mutual
def valueFrom : Nat → Text → Option (Value × Text)
  | 0, _ => none
  | _, [] => none
  | fuel + 1, c :: r =>
    if c = '"' then (text? r).map fun (t,s) => (.text t,s)
    else if c = '[' then
      if r.head? = some ']' then some (.list [],r.tail)
      else (itemsFrom fuel r).map fun (xs,s) => (.list xs,s)
    else if c = '\x7b' then
      if r.head? = some '\x7d' then some (.map [],r.tail)
      else (entriesFrom fuel r).map fun (es,s) => (.map (Value.ofEntries es),s)
    else (word? (c :: r)).or (number? (c :: r))
/-- The items of a list, and what follows its closing bracket. -/
def itemsFrom : Nat → Text → Option (List Value × Text)
  | 0, _ => none
  | fuel + 1, t => match valueFrom fuel t with
    | some (x,',' :: s) => (itemsFrom fuel s).map fun (xs,u) => (x :: xs,u)
    | some (x,']' :: s) => some ([x],s)
    | _ => none
/-- The entries of a mapping, and what follows its closing brace. -/
def entriesFrom : Nat → Text → Option (List (Value × Value) × Text)
  | 0, _ => none
  | fuel + 1, t => match entryFrom fuel t with
    | some (e,',' :: s) => (entriesFrom fuel s).map fun (es,u) => (e :: es,u)
    | some (e,'\x7d' :: s) => some ([e],s)
    | _ => none
/-- A key, a colon and a value. -/
def entryFrom : Nat → Text → Option ((Value × Value) × Text)
  | 0, _ => none
  | fuel + 1, t =>
    if t.head? = some '"' then
      match text? t.tail with
      | some (k,':' :: s) => (valueFrom fuel s).map fun (v,u) => ((.text k,v),u)
      | _ => none
    else none
end

/-- The value that a text stands for in JSON. -/
def read? (t : Text) : Option Value :=
  match valueFrom (2 * t.length) t with
  | some (v,[]) => some v
  | _ => none

/-! Data. -/

mutual
/-- Null, truth values, whole numbers, texts, lists, and mappings with texts as keys, where all texts
satisfy `p` and no key comes twice. -/
def IsData (p : Text → Prop) : Value → Prop
  | .null | .bool _ | .int _ => True
  | .text t => p t
  | .list xs => AreData p xs
  | .map es => AreEntries p es ∧ es.Pairwise fun a b => Value.sameKey a.1 b.1 = false
  | _ => False
def AreData (p : Text → Prop) : List Value → Prop
  | [] => True
  | x :: xs => IsData p x ∧ AreData p xs
def AreEntries (p : Text → Prop) : List (Value × Value) → Prop
  | [] => True
  | (k,v) :: es => (∃ t, k = .text t ∧ p t) ∧ IsData p v ∧ AreEntries p es
end

/-! Keys. -/

theorem setEntry_of_forall {k v : Value} {es : List (Value × Value)}
    (h : ∀ e ∈ es, Value.sameKey e.1 k = false) : Value.setEntry k v es = es ++ [(k,v)] := by
  induction es with
  | nil => rfl
  | cons e es ih =>
    obtain ⟨he,hes⟩ := List.forall_mem_cons.mp h
    rw [Value.setEntry,he,if_neg Bool.false_ne_true,ih hes]
    rfl

theorem foldl_setEntry {es acc : List (Value × Value)}
    (h : (acc ++ es).Pairwise fun a b => Value.sameKey a.1 b.1 = false) :
    es.foldl (fun acc e => Value.setEntry e.1 e.2 acc) acc = acc ++ es := by
  induction es generalizing acc with
  | nil => simp
  | cons e es ih =>
    have hlast : ∀ a ∈ acc, Value.sameKey a.1 e.1 = false := fun a ha =>
      (List.pairwise_append.mp h).2.2 a ha e List.mem_cons_self
    rw [List.foldl_cons,setEntry_of_forall hlast,ih (by simpa using h)]
    simp

/-- Entries without a repeated key stay as they are. -/
theorem ofEntries_eq_self {es : List (Value × Value)}
    (h : es.Pairwise fun a b => Value.sameKey a.1 b.1 = false) : Value.ofEntries es = es := by
  have hall : ([] ++ es : List (Value × Value)).Pairwise fun a b => Value.sameKey a.1 b.1 = false := h
  exact foldl_setEntry hall

/-! What a value is written with. -/

/-- What follows a value: no more of a number. -/
def Ends (rest : Text) : Prop := ∀ c ∈ rest.head?, isNumeral c = false

/-- How the text of a value begins. -/
def Begins (t : Text) : Prop := ∃ c r, t = c::r ∧ c ≠ ']' ∧ c ≠ '\x7d' ∧ isBlank c = false

theorem isNumeral_ofInt (n : Int) : ∀ c ∈ ofInt n, isNumeral c = true := by
  have hfigures : ∀ k, ∀ c ∈ ofNat k, isNumeral c = true := by
    intro k c hc
    rw [isNumeral,Decimal.isFigures_ofNat k c hc]
    rfl
  cases n with
  | ofNat k => exact hfigures k
  | negSucc k => exact List.forall_mem_cons.mpr ⟨rfl,hfigures (k + 1)⟩

theorem exists_ofInt (n : Int) : ∃ c r, ofInt n = c::r ∧ isNumeral c = true := by
  obtain ⟨c,r,h⟩ : ∃ c r, ofInt n = c::r := by
    cases n with
    | ofNat k => exact List.exists_cons_of_ne_nil Nat.toDigits_ne_nil
    | negSucc k => exact ⟨_,_,rfl⟩
  exact ⟨c,r,h,isNumeral_ofInt n c (by simp [h])⟩

theorem ne_of_isNumeral {c d : Char} (h : isNumeral c = true) (hd : isNumeral d = false) : c ≠ d := by
  rintro rfl
  rw [h] at hd
  cases hd

theorem number?_of_write {n : Int} {t : Text} (ht : Decimal.write n = .ok t) {rest : Text}
    (h : Ends rest) : number? (t ++ rest) = some (.int n,rest) := by
  have hread := Decimal.integer?_of_write ht
  obtain ⟨-,rfl⟩ := Decimal.write_eq_ok_iff.mp ht
  obtain ⟨htake,hdrop⟩ := takeWhile_append_stop (isNumeral_ofInt n) h
  rw [number?,htake,hdrop,hread]
  rfl

theorem valueFrom_of_write {n : Int} {t : Text} (ht : Decimal.write n = .ok t) {rest : Text}
    (h : Ends rest) {fuel : Nat} (hfuel : 0 < fuel) :
    valueFrom fuel (t ++ rest) = some (.int n,rest) := by
  obtain ⟨fuel,rfl⟩ : ∃ m, fuel = m + 1 := ⟨fuel - 1,by omega⟩
  have hnumber := number?_of_write ht h
  obtain ⟨-,rfl⟩ := Decimal.write_eq_ok_iff.mp ht
  obtain ⟨c,r,hn,hc⟩ := exists_ofInt n
  rw [hn] at hnumber ⊢
  have hne := fun {d : Char} (hd : isNumeral d = false) => ne_of_isNumeral hc hd
  have hword : word? (c::(r ++ rest)) = none := by
    have hnull := Ne.symm (hne (d := 'n') (by decide))
    have htrue := Ne.symm (hne (d := 't') (by decide))
    have hfalse := Ne.symm (hne (d := 'f') (by decide))
    simp [word?,words,after?,hnull,htrue,hfalse]
  rw [List.cons_append,valueFrom,if_neg (hne (by decide)),if_neg (hne (by decide)),
    if_neg (hne (by decide)),hword]
  exact hnumber

theorem isBlank_of_isNumeral {c : Char} (h : isNumeral c = true) : isBlank c = false := by
  simp only [isNumeral,Bool.or_eq_true,decide_eq_true_eq] at h
  rcases h with hdigit | rfl
  · have hrange := Text.toNat_of_isDigit hdigit
    simp only [isBlank,Bool.or_eq_false_iff,Bool.and_eq_false_iff,decide_eq_false_iff_not,
      beq_eq_false_iff_ne]
    omega
  · decide

/-- The text of a value begins visibly, and not with a closing bracket or brace. -/
theorem begins_json {p : Text → Prop} {v : Value} (hv : IsData p v) {room depth : Nat} {j : Text}
    (h : v.json .compact room depth = .ok j) : Begins j := by
  cases v with
  | null =>
    cases h
    exact ⟨_,_,rfl,by decide⟩
  | bool b =>
    cases b <;> cases h <;> exact ⟨_,_,rfl,by decide⟩
  | int n =>
    obtain ⟨-,rfl⟩ := Decimal.write_eq_ok_iff.mp h
    obtain ⟨c,r,hn,hc⟩ := exists_ofInt n
    exact ⟨c,r,hn,ne_of_isNumeral hc (by decide),ne_of_isNumeral hc (by decide),
      isBlank_of_isNumeral hc⟩
  | text t =>
    cases h
    exact ⟨_,_,rfl,by decide⟩
  | list xs =>
    cases xs with
    | nil =>
      obtain ⟨_,-,h⟩ := bind_eq_ok_iff.mp h
      cases h
      exact ⟨_,_,rfl,by decide⟩
    | cons x xs =>
      rw [Value.json] at h
      obtain ⟨_,-,h⟩ := bind_eq_ok_iff.mp h
      obtain ⟨items,-,h⟩ := bind_eq_ok_iff.mp h
      cases h
      exact ⟨_,_,rfl,by decide⟩
  | map es =>
    cases es with
    | nil =>
      obtain ⟨_,-,h⟩ := bind_eq_ok_iff.mp h
      cases h
      exact ⟨_,_,rfl,by decide⟩
    | cons e es =>
      rw [Value.json] at h
      obtain ⟨_,-,h⟩ := bind_eq_ok_iff.mp h
      obtain ⟨entries,-,h⟩ := bind_eq_ok_iff.mp h
      cases h
      exact ⟨_,_,rfl,by decide⟩
  | _ => exact hv.elim

/-! Reading. -/

section Reading
variable {fuel : Nat} {j k rest : Text} {x : Value} {xs : List Value} {e : Value × Value}
  {es : List (Value × Value)}

theorem valueFrom_text {t : Text} (h : Unpaired t) (hfuel : 0 < fuel) :
    valueFrom fuel (Value.jsonText t ++ rest) = some (.text t,rest) := by
  obtain ⟨fuel,rfl⟩ : ∃ n, fuel = n + 1 := ⟨fuel - 1,by omega⟩
  have happ : Value.jsonText t ++ rest = '"' :: (t.flatMap Value.jsonChar ++ '"' :: rest) := by
    simp [Value.jsonText]
  rw [happ,valueFrom,if_pos rfl,text?_flatMap h]
  rfl

theorem valueFrom_list (hj : Begins j) (h : itemsFrom fuel (j ++ ']' :: rest) = some (xs,rest)) :
    valueFrom (fuel + 1) ('[' :: (j ++ ']' :: rest)) = some (.list xs,rest) := by
  obtain ⟨c,r,rfl,hc,-⟩ := hj
  have hhead : ¬(c::r ++ ']' :: rest).head? = some ']' := by simpa using hc
  rw [valueFrom,if_neg (by decide),if_pos rfl,if_neg hhead,h]
  rfl

theorem itemsFrom_singleton (h : valueFrom fuel (j ++ ']' :: rest) = some (x,']' :: rest)) :
    itemsFrom (fuel + 1) (j ++ ']' :: rest) = some ([x],rest) := by
  simp only [itemsFrom,h]

theorem itemsFrom_cons (hx : valueFrom fuel (j ++ ',' :: k) = some (x,',' :: k))
    (hxs : itemsFrom fuel k = some (xs,rest)) :
    itemsFrom (fuel + 1) (j ++ ',' :: k) = some (x::xs,rest) := by
  simp only [itemsFrom,hx,hxs,Option.map_some]

theorem valueFrom_map (hj : Begins j)
    (hes : es.Pairwise fun a b => Value.sameKey a.1 b.1 = false)
    (h : entriesFrom fuel (j ++ '\x7d' :: rest) = some (es,rest)) :
    valueFrom (fuel + 1) ('\x7b' :: (j ++ '\x7d' :: rest)) = some (.map es,rest) := by
  obtain ⟨c,r,rfl,-,hc,-⟩ := hj
  have hhead : ¬(c::r ++ '\x7d' :: rest).head? = some '\x7d' := by simpa using hc
  rw [valueFrom,if_neg (by decide),if_neg (by decide),if_pos rfl,if_neg hhead,h]
  simp only [Option.map_some,ofEntries_eq_self hes]

theorem entryFrom_text {t : Text} (ht : Unpaired t) (h : valueFrom fuel (j ++ k) = some (x,k)) :
    entryFrom (fuel + 1) (Value.jsonText t ++ ':' :: (j ++ k)) = some ((.text t,x),k) := by
  have happ : Value.jsonText t ++ ':' :: (j ++ k) =
      '"' :: (t.flatMap Value.jsonChar ++ '"' :: (':' :: (j ++ k))) := by
    simp [Value.jsonText]
  rw [happ,entryFrom,List.head?_cons,if_pos rfl,List.tail_cons,text?_flatMap ht]
  simp only [h,Option.map_some]

theorem entriesFrom_singleton (h : entryFrom fuel (j ++ '\x7d' :: rest) = some (e,'\x7d' :: rest)) :
    entriesFrom (fuel + 1) (j ++ '\x7d' :: rest) = some ([e],rest) := by
  simp only [entriesFrom,h]

theorem entriesFrom_cons (he : entryFrom fuel (j ++ ',' :: k) = some (e,',' :: k))
    (hes : entriesFrom fuel k = some (es,rest)) :
    entriesFrom (fuel + 1) (j ++ ',' :: k) = some (e::es,rest) := by
  simp only [entriesFrom,he,hes,Option.map_some]

theorem ends_cons {c : Char} (h : isNumeral c = false) (r : Text) : Ends (c::r) := by
  intro d hd
  cases hd
  exact h

end Reading

theorem begins_jsonText (t more : Text) : Begins (Value.jsonText t ++ more) := ⟨_,_,rfl,by decide⟩

/-- The text of an entry, with others behind it or without. -/
theorem jsonEntries_cons {t : Text} {v : Value} {es : List (Value × Value)} {room depth : Nat} {j : Text}
    (h : Value.jsonEntries .compact room depth ((.text t,v)::es) = .ok j) :
    ∃ k, v.json .compact room depth = .ok k ∧ (es = [] ∧ j = Value.jsonText t ++ ':' :: k ∨
      ∃ more, es ≠ [] ∧ Value.jsonEntries .compact room depth es = .ok more ∧
        j = Value.jsonText t ++ ':' :: (k ++ ',' :: more)) := by
  cases es with
  | nil =>
    rw [Value.jsonEntries] at h
    obtain ⟨_,hkey,h⟩ := bind_eq_ok_iff.mp h
    obtain ⟨k,hk,h⟩ := bind_eq_ok_iff.mp h
    cases hkey
    cases h
    exact ⟨k,hk,.inl ⟨rfl,by simp [Value.JsonLayout.compact]⟩⟩
  | cons e es =>
    rw [Value.jsonEntries] at h
    obtain ⟨_,hkey,h⟩ := bind_eq_ok_iff.mp h
    obtain ⟨k,hk,h⟩ := bind_eq_ok_iff.mp h
    obtain ⟨more,hmore,h⟩ := bind_eq_ok_iff.mp h
    cases hkey
    cases h
    refine ⟨k,hk,.inr ⟨more,List.cons_ne_nil e es,hmore,?_⟩⟩
    simp [Value.JsonLayout.compact,Value.JsonLayout.lineBreak]

theorem begins_jsonEntries {p : Text → Prop} {e : Value × Value} {es : List (Value × Value)}
    (he : AreEntries p (e::es)) {room depth : Nat} {j : Text}
    (h : Value.jsonEntries .compact room depth (e::es) = .ok j) : Begins j := by
  obtain ⟨k,v⟩ := e
  obtain ⟨⟨t,rfl,-⟩,-⟩ := he
  obtain ⟨k,-,⟨-,rfl⟩ | ⟨more,-,-,rfl⟩⟩ := jsonEntries_cons h
  · exact begins_jsonText t _
  · exact begins_jsonText t _

theorem begins_jsonItems {p : Text → Prop} {x : Value} {xs : List Value} (hx : IsData p x)
    {room depth : Nat} {j : Text} (h : Value.jsonItems .compact room depth (x::xs) = .ok j) : Begins j := by
  cases xs with
  | nil => exact begins_json hx h
  | cons y xs =>
    rw [Value.jsonItems] at h
    obtain ⟨first,hfirst,h⟩ := bind_eq_ok_iff.mp h
    obtain ⟨_,-,h⟩ := bind_eq_ok_iff.mp h
    cases h
    obtain ⟨c,r,rfl,hc⟩ := begins_json hx hfirst
    exact ⟨c,_,rfl,hc⟩

theorem lineBreak_compact (depth : Nat) : Value.JsonLayout.compact.lineBreak depth = [] := rfl

mutual
/-- Data is read as it was written, whatever follows. -/
theorem valueFrom_json {v : Value} (hv : IsData Unpaired v) {room depth : Nat} {j : Text}
    (h : v.json .compact room depth = .ok j) {rest : Text} (hrest : Ends rest) {fuel : Nat}
    (hfuel : 2 * j.length ≤ fuel) : valueFrom fuel (j ++ rest) = some (v,rest) := by
  obtain ⟨c,r,hj,-⟩ := begins_json hv h
  obtain ⟨fuel,rfl⟩ : ∃ n, fuel = n + 1 := by
    refine ⟨fuel - 1,?_⟩
    rw [hj,List.length_cons] at hfuel
    omega
  cases v with
  | null =>
    cases h
    rfl
  | bool b =>
    cases b <;> cases h <;> rfl
  | int n => exact valueFrom_of_write h hrest (Nat.succ_pos fuel)
  | text t =>
    cases h
    exact valueFrom_text hv (Nat.succ_pos fuel)
  | list xs =>
    cases xs with
    | nil =>
      obtain ⟨_,-,h⟩ := bind_eq_ok_iff.mp h
      cases h
      rfl
    | cons x xs =>
      rw [Value.json] at h
      obtain ⟨_,-,h⟩ := bind_eq_ok_iff.mp h
      obtain ⟨items,hitems,h⟩ := bind_eq_ok_iff.mp h
      cases h
      simp only [lineBreak_compact,List.nil_append,List.cons_append,List.append_assoc,
        List.length_cons,List.length_append,List.length_nil] at hfuel ⊢
      have hitemsFuel : 2 * items.length < fuel := by omega
      exact valueFrom_list (begins_jsonItems hv.1 hitems)
        (itemsFrom_jsonItems (List.cons_ne_nil x xs) hv hitems rest hitemsFuel)
  | map es =>
    cases es with
    | nil =>
      obtain ⟨_,-,h⟩ := bind_eq_ok_iff.mp h
      cases h
      rfl
    | cons e es =>
      rw [Value.json] at h
      obtain ⟨_,-,h⟩ := bind_eq_ok_iff.mp h
      obtain ⟨entries,hentries,h⟩ := bind_eq_ok_iff.mp h
      cases h
      simp only [lineBreak_compact,List.nil_append,List.cons_append,List.append_assoc,
        List.length_cons,List.length_append,List.length_nil] at hfuel ⊢
      have hentriesFuel : 2 * entries.length < fuel := by omega
      exact valueFrom_map (begins_jsonEntries hv.1 hentries) hv.2
        (entriesFrom_jsonEntries (List.cons_ne_nil e es) hv.1 hentries rest hentriesFuel)
  | _ => exact hv.elim

theorem itemsFrom_jsonItems {xs : List Value} (hne : xs ≠ []) (hxs : AreData Unpaired xs)
    {room depth : Nat} {j : Text} (h : Value.jsonItems .compact room depth xs = .ok j) (rest : Text) {fuel : Nat}
    (hfuel : 2 * j.length < fuel) : itemsFrom fuel (j ++ ']' :: rest) = some (xs,rest) := by
  obtain ⟨fuel,rfl⟩ : ∃ n, fuel = n + 1 := ⟨fuel - 1,by omega⟩
  match xs with
  | [] => exact absurd rfl hne
  | [x] =>
    have hend : Ends (']' :: rest) := ends_cons (by decide) rest
    exact itemsFrom_singleton (valueFrom_json hxs.1 h hend (by omega))
  | x::y::xs =>
    rw [Value.jsonItems] at h
    obtain ⟨first,hfirst,h⟩ := bind_eq_ok_iff.mp h
    obtain ⟨items,hitems,h⟩ := bind_eq_ok_iff.mp h
    cases h
    have happ : first ++ Value.JsonLayout.compact.itemSeparator ++
        Value.JsonLayout.compact.lineBreak depth ++ items = first ++ ',' :: items := by
      simp [Value.JsonLayout.compact,Value.JsonLayout.lineBreak]
    rw [happ] at hfuel ⊢
    rw [List.length_append,List.length_cons] at hfuel
    have hend : Ends (',' :: (items ++ ']' :: rest)) := ends_cons (by decide) _
    rw [List.append_assoc,List.cons_append]
    exact itemsFrom_cons (valueFrom_json hxs.1 hfirst hend (by omega))
      (itemsFrom_jsonItems (List.cons_ne_nil y xs) hxs.2 hitems rest (by omega))

theorem entriesFrom_jsonEntries {es : List (Value × Value)} (hne : es ≠ [])
    (hes : AreEntries Unpaired es) {room depth : Nat} {j : Text}
    (h : Value.jsonEntries .compact room depth es = .ok j) (rest : Text) {fuel : Nat}
    (hfuel : 2 * j.length < fuel) : entriesFrom fuel (j ++ '\x7d' :: rest) = some (es,rest) := by
  match es with
  | [] => exact absurd rfl hne
  | (k,v)::es =>
    obtain ⟨⟨t,rfl,ht⟩,hv,hes⟩ := hes
    have hquotes : 2 ≤ (Value.jsonText t).length := by simp [Value.jsonText]
    obtain ⟨k,hk,⟨rfl,rfl⟩ | ⟨more,hmore,hentries,rfl⟩⟩ := jsonEntries_cons h
    · simp only [List.length_append,List.length_cons] at hfuel
      obtain ⟨fuel,rfl⟩ : ∃ n, fuel = n + 1 + 1 := ⟨fuel - 2,by omega⟩
      have hend : Ends ('\x7d' :: rest) := ends_cons (by decide) rest
      have hread := entryFrom_text ht (valueFrom_json hv hk hend (by omega : 2 * k.length ≤ fuel))
      rw [← List.cons_append,← List.append_assoc] at hread
      exact entriesFrom_singleton hread
    · simp only [List.length_append,List.length_cons] at hfuel
      obtain ⟨fuel,rfl⟩ : ∃ n, fuel = n + 1 + 1 := ⟨fuel - 2,by omega⟩
      have hend : Ends (',' :: (more ++ '\x7d' :: rest)) := ends_cons (by decide) _
      have hread := entryFrom_text ht (valueFrom_json hv hk hend (by omega : 2 * k.length ≤ fuel))
      have hrest := entriesFrom_jsonEntries hmore hes hentries rest (by omega : 2 * more.length < fuel + 1)
      have happ : Value.jsonText t ++ ':' :: (k ++ ',' :: more) ++ '\x7d' :: rest =
          (Value.jsonText t ++ ':' :: k) ++ ',' :: (more ++ '\x7d' :: rest) := by simp
      rw [← List.cons_append,← List.append_assoc] at hread
      rw [happ]
      exact entriesFrom_cons hread hrest
end

section Written
variable {p : Text → Prop} {u v : Value}

/-- Data that is not written: it holds a number with too many figures, or its collections lie too deep in
each other. -/
inductive Exceeds (room : Nat) (v : Value) : Fault → Prop
  | number {n} : Value.Within (.int n) v → Decimal.mostFigures < (ofNat n.natAbs).length →
      Exceeds room v .longNumber
  | deep : room < v.depth → Exceeds room v .descent

end Written

end Json
end Longform
