import Longform.Placeholder
import Longform.Proofs.Outcome
import Longform.Proofs.Text.Search
import Mathlib.Data.List.TakeWhile

/-! Placeholders as pieces of a text. A text is cut from left to right, each time behind the longest
placeholder that begins there, or else behind one character, and there is one way to do so. Filling a text is
filling its pieces, each on its own: a value is never read again, and everything that is no known placeholder
stays as it is. Texts are filled apart when no placeholder lies across the place where they meet. -/
namespace Longform
namespace Placeholder

/-- A dollar sign, a letter or underscore, and characters of names. -/
inductive IsVariable : Text → Text → Prop
  | intro {c : Char} {r : Text} (start : isNameStart c = true) (parts : ∀ d ∈ r, isNamePart d = true) :
    IsVariable ('$' :: c::r) (c::r)

/-- Something without braces between two braces on each side. -/
inductive IsAttribute : Text → Text → Prop
  | intro {r : Text} (nonempty : r ≠ []) (inside : ∀ c ∈ r, isInside c = true) :
    IsAttribute ('\x7b' :: '\x7b' :: (r ++ ['\x7d','\x7d'])) r

/-- A piece of a text, with its name if it is a placeholder. -/
structure Piece where
  raw : Text
  name : Option Text
deriving DecidableEq, Repr

def textOf (ps : List Piece) : Text := ps.flatMap Piece.raw

/-- The pieces of a text, where `P` tells the placeholders and their names. -/
inductive Cut (P : Text → Text → Prop) : Text → List Piece → Prop
  | nil : Cut P [] []
  | placeholder {w name rest : Text} {ps : List Piece} (holds : P w name)
      (longest : ∀ v n, P v n → v <+: w ++ rest → v.length ≤ w.length) :
      Cut P rest ps → Cut P (w ++ rest) (⟨w,some name⟩::ps)
  | char {c : Char} {rest : Text} {ps : List Piece} (none_begins : ∀ v n, P v n → ¬v <+: c::rest) :
      Cut P rest ps → Cut P (c::rest) (⟨[c],none⟩::ps)

/-- What a piece becomes: the text of its value, or itself. -/
def Piece.filled (room : Nat) (value? : Text → Option Value) (p : Piece) : Except Fault Text :=
  match p.name.bind value? with
  | some v => v.stringify room
  | none => .ok p.raw

/-- The pieces filled one after the other. -/
def fillEach (room : Nat) (value? : Text → Option Value) (ps : List Piece) : Except Fault Text :=
  (ps.mapM (Piece.filled room value?)).map List.flatten

/-- Two texts one behind the other, the fault of the first one before that of the second. -/
def concat (x y : Except Fault Text) : Except Fault Text := do
  let a ← x
  let b ← y
  .ok (a ++ b)

/-- Filling goes piece by piece. -/
def Piecewise (P : Text → Text → Prop) (room : Nat) (value? : Text → Option Value)
    (fill : Text → Except Fault Text) : Prop :=
  ∀ t, ∃ ps, Cut P t ps ∧ (∀ qs, Cut P t qs → qs = ps) ∧ textOf ps = t ∧ fill t = fillEach room value? ps

/-- A piece of `a ++ b` begins in `a` and ends in `b`. -/
def Straddles (P : Text → Text → Prop) (a b : Text) : Prop :=
  ∃ ps p qs u v, Cut P (a ++ b) (ps ++ p::qs) ∧ a = textOf ps ++ u ∧ p.raw = u ++ v ∧ u ≠ [] ∧ v ≠ []

/-- A reader that finds the longest placeholder at the beginning of a text. -/
structure Finds (read? : Text → Option (Text × Text)) (P : Text → Text → Prop) : Prop where
  found : ∀ {t name s}, read? t = some (name,s) →
    ∃ w, P w name ∧ t = w ++ s ∧ ∀ v n, P v n → v <+: t → v.length ≤ w.length
  missed : ∀ {t}, read? t = none → ∀ v n, P v n → ¬v <+: t
  nonempty : ∀ {w n}, P w n → w ≠ []
  name_unique : ∀ {w m n}, P w m → P w n → m = n

/-! The two kinds of placeholders. -/

theorem length_le_takeWhile {p : Char → Bool} {r u : Text} (h : ∀ c ∈ r, p c = true) :
    r.length ≤ ((r ++ u).takeWhile p).length := by
  rw [List.takeWhile_append_of_pos h,List.length_append]
  exact Nat.le_add_right _ _

theorem finds_variableAt : Finds variableAt? IsVariable where
  found := by
    intro t name s h
    unfold variableAt? at h
    split at h
    · rename_i c r
      split at h
      · rename_i hc
        cases h
        refine ⟨_,.intro hc fun d hd => List.mem_takeWhile_imp hd,?_,?_⟩
        · simp
        · rintro v n ⟨-,hparts⟩ ⟨u,hu⟩
          simp only [List.cons_append,List.cons.injEq,true_and] at hu
          obtain ⟨-,rfl⟩ := hu
          simpa using length_le_takeWhile hparts
      · cases h
    · cases h
  missed := by
    rintro t h v n ⟨hstart,-⟩ ⟨u,rfl⟩
    simp [variableAt?,hstart] at h
  nonempty := by
    rintro w n ⟨-,-⟩
    exact List.cons_ne_nil _ _
  name_unique := by
    rintro w m n ⟨-,-⟩ ⟨-,-⟩
    rfl

/-- The reader of attributes at what is one. -/
theorem attributeAt?_append {r : Text} (hne : r ≠ []) (h : ∀ c ∈ r, isInside c = true) (u : Text) :
    attributeAt? ('\x7b' :: '\x7b' :: (r ++ ['\x7d','\x7d']) ++ u) = some (r,u) := by
  have hstop : ∀ c ∈ ('\x7d' :: '\x7d' :: u).head?, isInside c = false := by
    simp only [List.head?_cons,Option.mem_some_iff,forall_eq']
    decide
  obtain ⟨htake,hdrop⟩ := Text.takeWhile_append_stop h hstop
  have happ : '\x7b' :: '\x7b' :: (r ++ ['\x7d','\x7d']) ++ u =
      '\x7b' :: '\x7b' :: (r ++ '\x7d' :: '\x7d' :: u) := by simp
  simp only [happ,attributeAt?,htake,hdrop,List.isEmpty_eq_false_iff.mpr hne]
  rfl

theorem finds_attributeAt : Finds attributeAt? IsAttribute where
  found := by
    intro t name s h
    unfold attributeAt? at h
    split at h
    · rename_i r
      simp only at h
      split at h
      · rename_i u hdrop
        split at h
        · cases h
        · rename_i hname
          cases h
          have hinside : ∀ c ∈ r.takeWhile isInside, isInside c = true :=
            fun c hc => List.mem_takeWhile_imp hc
          have hne : r.takeWhile isInside ≠ [] := by simpa using hname
          have hr : r = r.takeWhile isInside ++ '\x7d' :: '\x7d' :: s := by
            rw [← hdrop,List.takeWhile_append_dropWhile]
          refine ⟨_,.intro hne hinside,?_,?_⟩
          · conv => lhs; rw [hr]
            simp
          -- what stands between the braces is no longer than the run without braces
          · rintro v n ⟨-,hparts⟩ ⟨u,hu⟩
            simp only [List.cons_append,List.append_assoc,List.cons.injEq,true_and] at hu
            rw [← hu]
            simpa using length_le_takeWhile hparts
      · cases h
    · cases h
  missed := by
    rintro t h v n ⟨hne,hinside⟩ ⟨u,rfl⟩
    rw [attributeAt?_append hne hinside] at h
    cases h
  nonempty := by
    rintro w n ⟨-,-⟩
    exact List.cons_ne_nil _ _
  name_unique := by
    intro w m n hm hn
    cases hm with
    | intro hne hinside =>
      generalize hw : '\x7b' :: '\x7b' :: (m ++ ['\x7d','\x7d']) = w at hn
      cases hn with
      | intro hne' hinside' =>
        simpa using hw

/-! The pieces of a text. -/

section Cut
variable {P : Text → Text → Prop} {t a b : Text} {ps qs : List Piece}

@[simp] theorem textOf_nil : textOf [] = [] := rfl
@[simp] theorem textOf_cons (p : Piece) (ps : List Piece) : textOf (p::ps) = p.raw ++ textOf ps := rfl

theorem textOf_append (ps qs : List Piece) : textOf (ps ++ qs) = textOf ps ++ textOf qs :=
  List.flatMap_append

theorem Cut.textOf_eq (h : Cut P t ps) : textOf ps = t := by
  induction h with
  | nil => rfl
  | placeholder holds longest _ ih => rw [textOf_cons,ih]
  | char none_begins _ ih => rw [textOf_cons,ih,List.singleton_append]

theorem Cut.unique (hnonempty : ∀ {w n}, P w n → w ≠ []) (hname : ∀ {w m n}, P w m → P w n → m = n)
    (h : Cut P t ps) (h' : Cut P t qs) : qs = ps := by
  induction h generalizing qs with
  | nil =>
    generalize ht : ([] : Text) = t at h'
    cases h' with
    | nil => rfl
    | placeholder holds _ _ => exact absurd (List.append_eq_nil_iff.mp ht.symm).1 (hnonempty holds)
    | char _ _ => cases ht
  | @placeholder w name rest ps holds longest _ ih =>
    generalize ht : w ++ rest = t at h'
    cases h' with
    | nil => exact absurd (List.append_eq_nil_iff.mp ht).1 (hnonempty holds)
    | @placeholder w' name' rest' qs holds' longest' hrest =>
      have hle := longest' w name holds ⟨rest,ht⟩
      have hge := longest w' name' holds' ⟨rest',ht.symm⟩
      obtain ⟨rfl,rfl⟩ := List.append_inj ht (Nat.le_antisymm hle hge)
      rw [ih hrest,hname holds' holds]
    | char none_begins _ => exact absurd ⟨rest,ht⟩ (none_begins w name holds)
  | @char c rest ps none_begins _ ih =>
    generalize ht : c::rest = t at h'
    cases h' with
    | nil => cases ht
    | @placeholder w' name' rest' qs holds' _ _ =>
      exact absurd ⟨rest',ht.symm⟩ (none_begins w' name' holds')
    | char _ hrest =>
      cases ht
      rw [ih hrest]

/-- Where a piece ends the text can be cut in two. -/
theorem Cut.of_append (h : Cut P (a ++ b) (ps ++ qs)) (ha : textOf ps = a) : Cut P a ps ∧ Cut P b qs := by
  induction ps generalizing a with
  | nil =>
    rw [textOf_nil] at ha
    subst ha
    exact ⟨.nil,h⟩
  | cons p ps ih =>
    rw [textOf_cons] at ha
    subst ha
    rw [List.append_assoc,List.cons_append] at h
    generalize ht : p.raw ++ (textOf ps ++ b) = t at h
    cases h with
    | @placeholder w name rest ps' holds longest hrest =>
      obtain rfl := List.append_cancel_left ht
      obtain ⟨hps,hqs⟩ := ih hrest rfl
      refine ⟨.placeholder holds (fun v n hv hpre => longest v n hv ?_) hps,hqs⟩
      rw [← List.append_assoc]
      exact hpre.trans (List.prefix_append _ _)
    | @char c rest ps' none_begins hrest =>
      obtain rfl : textOf ps ++ b = rest := (List.cons.inj ht).2
      obtain ⟨hps,hqs⟩ := ih hrest rfl
      refine ⟨.char (fun v n hv hpre => none_begins v n hv ?_) hps,hqs⟩
      rw [← List.cons_append]
      exact hpre.trans (List.prefix_append _ _)

/-- A text that ends within no piece ends where a piece ends. -/
theorem exists_append_of_textOf {cs : List Piece} (h : textOf cs = a ++ b)
    (hapart : ∀ ps p qs u v, cs = ps ++ p::qs → a = textOf ps ++ u → p.raw = u ++ v →
      u = [] ∨ v = []) :
    ∃ ps qs, cs = ps ++ qs ∧ textOf ps = a := by
  induction cs generalizing a with
  | nil => exact ⟨[],[],rfl,(List.append_eq_nil_iff.mp h.symm).1.symm⟩
  | cons p cs ih =>
    rw [textOf_cons] at h
    rcases List.append_eq_append_iff.mp h with ⟨a',rfl,ha⟩ | ⟨v,hraw,-⟩
    · obtain ⟨ps,qs,rfl,rfl⟩ := ih ha fun ps p' qs u v hcs hu hraw => by
        subst hcs hu
        exact hapart (p::ps) p' qs u v rfl (by simp) hraw
      exact ⟨p::ps,qs,rfl,rfl⟩
    · rcases hapart [] p cs a v rfl rfl hraw with rfl | rfl
      · exact ⟨[],p::cs,rfl,rfl⟩
      · exact ⟨[p],cs,rfl,by simpa using hraw⟩

theorem exists_append_of_not_straddles (h : ¬Straddles P a b) {cs : List Piece}
    (hcut : Cut P (a ++ b) cs) : ∃ ps qs, cs = ps ++ qs ∧ Cut P a ps ∧ Cut P b qs := by
  obtain ⟨ps,qs,rfl,ha⟩ := exists_append_of_textOf hcut.textOf_eq fun ps p qs u v hcs hu hraw => by
    subst hcs
    by_contra hne
    rw [not_or] at hne
    exact h ⟨ps,p,qs,u,v,hcut,hu,hraw,hne.1,hne.2⟩
  exact ⟨ps,qs,rfl,hcut.of_append ha⟩

/-- No piece lies across the place where one ends and the next one begins. -/
theorem not_straddles_of_cut (hnonempty : ∀ {w n}, P w n → w ≠ [])
    (hname : ∀ {w m n}, P w m → P w n → m = n) (h : Cut P (a ++ b) (ps ++ qs)) (ha : textOf ps = a) :
    ¬Straddles P a b := by
  rintro ⟨ps',p,qs',u,v,h',hu,hraw,hne,hne'⟩
  rcases List.append_eq_append_iff.mp (h.unique hnonempty hname h') with ⟨xs,rfl,hxs⟩ | ⟨xs,rfl,-⟩
  · cases xs with
    | nil =>
      rw [← ha,List.append_nil] at hu
      exact hne (List.self_eq_append_right.mp hu)
    | cons x xs =>
      obtain ⟨rfl,-⟩ := List.cons.inj hxs
      rw [← ha,textOf_append,textOf_cons,hraw,List.append_cancel_left_eq,List.append_assoc,
        List.append_right_eq_self,List.append_eq_nil_iff] at hu
      exact hne' hu.1
  · rw [← ha,textOf_append,List.append_assoc,List.self_eq_append_right,List.append_eq_nil_iff] at hu
    exact hne hu.2

end Cut

/-! Filling the pieces. -/

section Fill
variable {room : Nat} {value? : Text → Option Value}

theorem fillEach_nil : fillEach room value? [] = .ok [] := rfl

theorem fillEach_cons (p : Piece) (ps : List Piece) :
    fillEach room value? (p::ps) = concat (p.filled room value?) (fillEach room value? ps) := by
  unfold fillEach
  rw [List.mapM_cons]
  cases p.filled room value? with
  | error e => rfl
  | ok a => cases ps.mapM (Piece.filled room value?) <;> rfl

theorem concat_assoc (x y z : Except Fault Text) : concat (concat x y) z = concat x (concat y z) := by
  cases x with
  | error e => rfl
  | ok a =>
    cases y with
    | error e => rfl
    | ok b =>
      cases z with
      | error e => rfl
      | ok c => exact congrArg Except.ok (List.append_assoc a b c)

theorem fillEach_append (ps qs : List Piece) :
    fillEach room value? (ps ++ qs) = concat (fillEach room value? ps) (fillEach room value? qs) := by
  induction ps with
  | nil =>
    rw [List.nil_append,fillEach_nil]
    cases fillEach room value? qs <;> rfl
  | cons p ps ih => rw [List.cons_append,fillEach_cons,fillEach_cons,ih,concat_assoc]

/-- The pieces computed, within `fuel` steps. -/
def piecesFrom (read? : Text → Option (Text × Text)) : Nat → Text → List Piece
  | 0, _ => []
  | _, [] => []
  | fuel + 1, c :: r =>
    match read? (c :: r) with
    | none => ⟨[c],none⟩ :: piecesFrom read? fuel r
    | some (name, s) =>
      ⟨(c :: r).take ((c :: r).length - s.length),some name⟩ :: piecesFrom read? fuel s

section Reader
variable {read? : Text → Option (Text × Text)} {P : Text → Text → Prop}

theorem Finds.length_lt (h : Finds read? P) {t name s : Text} (hread : read? t = some (name,s)) :
    s.length < t.length := by
  obtain ⟨w,hw,rfl,-⟩ := h.found hread
  rw [List.length_append]
  exact Nat.lt_add_of_pos_left (List.length_pos_iff.mpr (h.nonempty hw))

theorem cut_piecesFrom (h : Finds read? P) {fuel : Nat} {t : Text} (hfuel : t.length ≤ fuel) :
    Cut P t (piecesFrom read? fuel t) := by
  induction fuel generalizing t with
  | zero =>
    obtain rfl : t = [] := List.length_eq_zero_iff.mp (Nat.le_zero.mp hfuel)
    exact .nil
  | succ fuel ih =>
    cases t with
    | nil => exact .nil
    | cons c r =>
      rw [piecesFrom]
      cases hread : read? (c::r) with
      | none => exact .char (h.missed hread) (ih (Nat.le_of_succ_le_succ hfuel))
      | some p =>
        obtain ⟨name,s⟩ := p
        have hlt := Nat.lt_of_lt_of_le (h.length_lt hread) hfuel
        obtain ⟨w,hw,happ,hlongest⟩ := h.found hread
        have hraw : (c::r).take ((c::r).length - s.length) = w := by
          rw [happ,List.length_append,Nat.add_sub_cancel,List.take_left]
        simp only [hraw]
        rw [happ] at hlongest ⊢
        exact .placeholder hw hlongest (ih (Nat.le_of_lt_succ hlt))

example : piecesFrom variableAt? 8 "$a-b$$c!".toList =
    [⟨"$a-b".toList,some "a-b".toList⟩,⟨['$'],none⟩,⟨"$c".toList,some ['c']⟩,⟨['!'],none⟩] := rfl

theorem fillFrom_eq (h : Finds read? P) {fuel : Nat} {t : Text} (hfuel : t.length ≤ fuel) :
    fillFrom room read? value? fuel t = fillEach room value? (piecesFrom read? fuel t) := by
  induction fuel generalizing t with
  | zero =>
    obtain rfl : t = [] := List.length_eq_zero_iff.mp (Nat.le_zero.mp hfuel)
    rfl
  | succ fuel ih =>
    cases t with
    | nil => rfl
    | cons c r =>
      rw [fillFrom,piecesFrom]
      cases hread : read? (c::r) with
      | none =>
        simp only [fillEach_cons]
        rw [ih (Nat.le_of_succ_le_succ hfuel)]
        rfl
      | some p =>
        obtain ⟨name,s⟩ := p
        simp only [fillEach_cons]
        rw [ih (Nat.le_of_lt_succ (Nat.lt_of_lt_of_le (h.length_lt hread) hfuel))]
        unfold Piece.filled
        cases hvalue : value? name <;> simp only [Option.bind_some,hvalue] <;> rfl

theorem piecewise_fillFrom (h : Finds read? P) (room : Nat) (value? : Text → Option Value) :
    Piecewise P room value? fun t => fillFrom room read? value? t.length t := by
  intro t
  have hcut := cut_piecesFrom h (Nat.le_refl t.length)
  exact ⟨_,hcut,fun _ hqs => hcut.unique h.nonempty h.name_unique hqs,hcut.textOf_eq,
    fillFrom_eq h (Nat.le_refl t.length)⟩

end Reader

/-- Where no value is known all pieces stay as they are. -/
theorem fillEach_eq_textOf {ps : List Piece} (h : ∀ name, value? name = none) :
    fillEach room value? ps = .ok (textOf ps) := by
  induction ps with
  | nil => rfl
  | cons p ps ih =>
    have hnone : p.name.bind value? = none := by
      cases p.name with
      | none => rfl
      | some name => exact h name
    rw [fillEach_cons,ih,Piece.filled,hnone]
    rfl

theorem Piecewise.of_empty {P : Text → Text → Prop} {fill : Text → Except Fault Text}
    (h : Piecewise P room value? fill) (hnone : ∀ name, value? name = none) :
    Piecewise P room value? Except.ok := by
  intro t
  obtain ⟨ps,hps,hunique,htext,-⟩ := h t
  exact ⟨ps,hps,hunique,htext,by rw [fillEach_eq_textOf hnone,htext]⟩

theorem Piecewise.append {P : Text → Text → Prop} {fill : Text → Except Fault Text}
    (h : Piecewise P room value? fill) {a b : Text} (hapart : ¬Straddles P a b) :
    fill (a ++ b) = concat (fill a) (fill b) := by
  obtain ⟨cs,hcs,-,-,hfill⟩ := h (a ++ b)
  obtain ⟨ps,qs,rfl,hps,hqs⟩ := exists_append_of_not_straddles hapart hcs
  obtain ⟨ps',-,hps',-,hfillps⟩ := h a
  obtain ⟨qs',-,hqs',-,hfillqs⟩ := h b
  rw [hfill,fillEach_append,hfillps,hfillqs,hps' ps hps,hqs' qs hqs]

end Fill

/-- Texts are filled piece by piece, and texts that meet where no piece lies are filled apart. -/
structure FillsPieces (P : Text → Text → Prop) (room : Nat) (value? : Text → Option Value)
    (fill : Text → Except Fault Text) : Prop where
  piecewise : Piecewise P room value? fill
  append : ∀ {a b}, ¬Straddles P a b → fill (a ++ b) = concat (fill a) (fill b)

theorem Piecewise.fillsPieces {P : Text → Text → Prop} {value? : Text → Option Value}
    {fill : Text → Except Fault Text} (h : Piecewise P room value? fill) : FillsPieces P room value? fill :=
  ⟨h,h.append⟩

theorem piecewise_fillVariables (room : Nat) (entries : List (Value × Value)) :
    Piecewise IsVariable room (fun name => Value.field? name entries) (fillVariables room entries) := by
  have h := piecewise_fillFrom finds_variableAt room fun name => Value.field? name entries
  cases entries with
  | nil => exact h.of_empty fun _ => rfl
  | cons e es => exact h

theorem piecewise_fillAttributes (room : Nat) (entries : List (Value × Value)) :
    Piecewise IsAttribute room (fun name => Value.field? (Text.trim name) entries)
      (fillAttributes room entries) := by
  have h := piecewise_fillFrom finds_attributeAt room fun name => Value.field? (Text.trim name) entries
  cases entries with
  | nil => exact h.of_empty fun _ => rfl
  | cons e es => exact h

/-- A text is filled piece by piece, with variables as with attributes: there is one way to cut it, known
placeholders become the texts of their values, and everything else stays. -/
theorem fill_by_pieces (room : Nat) (entries : List (Value × Value)) :
    FillsPieces IsVariable room (fun name => Value.field? name entries) (fillVariables room entries) ∧
      FillsPieces IsAttribute room (fun name => Value.field? (Text.trim name) entries)
        (fillAttributes room entries) :=
  ⟨(piecewise_fillVariables room entries).fillsPieces,(piecewise_fillAttributes room entries).fillsPieces⟩

/-- A variable at the end of a text, and a blank behind it. -/
theorem fillVariables_append_blank :
    ¬Straddles IsVariable "x$a".toList " $a".toList ∧
      fillVariables 1 [(.text ['a'],.text "1$a".toList)] ("x$a".toList ++ " $a".toList) =
        concat (.ok "x1$a".toList) (.ok " 1$a".toList) := by
  have hcut : Cut IsVariable ("x$a".toList ++ " $a".toList)
      ([⟨['x'],none⟩,⟨"$a".toList,some ['a']⟩] ++ [⟨[' '],none⟩,⟨"$a".toList,some ['a']⟩]) :=
    cut_piecesFrom finds_variableAt (Nat.le_refl ("x$a".toList ++ " $a".toList).length)
  have hapart : ¬Straddles IsVariable "x$a".toList " $a".toList :=
    not_straddles_of_cut finds_variableAt.nonempty finds_variableAt.name_unique hcut rfl
  exact ⟨hapart,(fill_by_pieces 1 [(.text ['a'],.text "1$a".toList)]).1.append hapart⟩

end Placeholder
end Longform
