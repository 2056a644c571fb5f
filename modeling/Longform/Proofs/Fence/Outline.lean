import Longform.Proofs.Fence.Opener
import Longform.Proofs.Fence.Scan

/-! Fences as parts of a text. A fence goes from a line that opens it to the first line that closes it,
or to the end, so lines have one outline of fences and lines between them, and a scan follows it. -/
namespace Longform
namespace Fence

/-- A line that closes a fence of `n` marks: it trims to at least as many and nothing else. -/
def Closes (c : Char) (n : Nat) (l : Text) : Prop := ∃ m, n ≤ m ∧ Text.trim l = List.replicate m c

/-- A line outside fences, or a fence with the lines between the one that opens it and the one that
closes it, if there is one. -/
inductive Part
  | line (text : Text)
  | fence (opening : Text) (body : List Text) (closing : Option Text)

/-- The lines of a part, each with whether it belongs to a fence. -/
def Part.flagged : Part → List (Text × Bool)
  | .line l => [(l,false)]
  | .fence o b e => (o::(b ++ e.toList)).map fun l => (l,true)

/-- The parts of some lines. A fence ends at the first line that closes it; only the last one may lack
such a line. -/
inductive Outline : List Text → List Part → Prop
  | nil : Outline [] []
  | line {l : Text} {ls : List Text} {ps : List Part} (plain : ∀ c n, ¬Opens c n l)
      (rest : Outline ls ps) : Outline (l::ls) (.line l::ps)
  | fence {o e : Text} {b ls : List Text} {ps : List Part} {c : Char} {n : Nat}
      (opening : Opens c n o) (body : ∀ l ∈ b, ¬Closes c n l) (closing : Closes c n e)
      (rest : Outline ls ps) : Outline (o::(b ++ e::ls)) (.fence o b (some e)::ps)
  | unclosed {o : Text} {b : List Text} {c : Char} {n : Nat}
      (opening : Opens c n o) (body : ∀ l ∈ b, ¬Closes c n l) : Outline (o::b) [.fence o b none]

variable {c : Char} {n : Nat} {l : Text} {ls b : List Text} {ps qs : List Part}

theorem closes_iff : closes c n l = true ↔ Closes c n l := by
  simp only [closes,Closes,Bool.and_eq_true,decide_eq_true_eq,List.all_eq_true]
  constructor
  · rintro ⟨hlong,hall⟩
    exact ⟨(Text.trim l).length,hlong,List.eq_replicate_of_mem hall⟩
  · rintro ⟨m,hlong,htrim⟩
    simpa [htrim] using hlong

theorem advance_of_opens (hl : '\n' ∉ l) (h : Opens c n l) : advance .normal l = .inside c n := by
  rw [advance,(opener?_eq_some_iff hl).mpr h]

theorem advance_of_plain (hl : '\n' ∉ l) (h : ∀ c n, ¬Opens c n l) : advance .normal l = .normal := by
  rw [advance_normal_eq_normal_iff,Option.eq_none_iff_forall_ne_some]
  intro x hx
  exact h x.1 x.2 ((opener?_eq_some_iff hl).mp hx)

theorem advance_of_closes (h : Closes c n l) : advance (.inside c n) l = .normal := by
  rw [advance,if_pos (closes_iff.mpr h)]

theorem advance_of_not_closes (h : ¬Closes c n l) : advance (.inside c n) l = .inside c n := by
  rw [advance,if_neg (mt closes_iff.mp h)]

/-- Inside a fence every line is flagged up to one that closes it. -/
theorem scanFrom_body (h : ∀ l ∈ b, ¬Closes c n l) (ls : List Text) :
    scanFrom (.inside c n) (b ++ ls) = b.map (fun l => (l,true)) ++ scanFrom (.inside c n) ls := by
  induction b with
  | nil => rfl
  | cons l b ih =>
    rw [List.forall_mem_cons] at h
    rw [List.cons_append,scanFrom,advance_of_not_closes h.1,ih h.2]
    rfl

theorem Outline.scan_eq (hls : ∀ l ∈ ls, '\n' ∉ l) (h : Outline ls ps) :
    scan ls = ps.flatMap Part.flagged := by
  unfold scan
  induction h with
  | nil => rfl
  | line plain rest ih =>
    rw [List.forall_mem_cons] at hls
    rw [scanFrom,advance_of_plain hls.1 plain,ih hls.2]
    rfl
  | @fence o e b ls ps c n opening body closing rest ih =>
    rw [List.forall_mem_cons,List.forall_mem_append,List.forall_mem_cons] at hls
    rw [scanFrom,advance_of_opens hls.1 opening,scanFrom_body body,scanFrom,
      advance_of_closes closing,ih hls.2.2.2]
    simp [Part.flagged,State.isFenced]
  | @unclosed o b c n opening body =>
    rw [List.forall_mem_cons] at hls
    have hbody := scanFrom_body body []
    rw [List.append_nil] at hbody
    rw [scanFrom,advance_of_opens hls.1 opening,hbody]
    simp [Part.flagged,State.isFenced,scanFrom]

/-- Lines have one that closes a fence first, or none. -/
theorem exists_closing (c : Char) (n : Nat) (ls : List Text) : (∀ l ∈ ls, ¬Closes c n l) ∨
    ∃ b e rest, ls = b ++ e::rest ∧ (∀ l ∈ b, ¬Closes c n l) ∧ Closes c n e := by
  cases hfind : ls.find? (closes c n) with
  | none =>
    rw [List.find?_eq_none] at hfind
    exact .inl fun l hl => mt closes_iff.mpr (hfind l hl)
  | some e =>
    obtain ⟨he,b,rest,rfl,hb⟩ := List.find?_eq_some_iff_append.mp hfind
    exact .inr ⟨b,e,rest,rfl,fun l hl h => by simpa [closes_iff.mpr h] using hb l hl,closes_iff.mp he⟩

theorem exists_outline (ls : List Text) : ∃ ps, Outline ls ps := by
  cases ls with
  | nil => exact ⟨[],.nil⟩
  | cons l ls =>
    by_cases hopens : ∃ c n, Opens c n l
    · obtain ⟨c,n,hl⟩ := hopens
      rcases exists_closing c n ls with hbody | ⟨b,e,rest,rfl,hbody,he⟩
      · exact ⟨_,.unclosed hl hbody⟩
      · obtain ⟨ps,hps⟩ := exists_outline rest
        exact ⟨_,.fence hl hbody he hps⟩
    · obtain ⟨ps,hps⟩ := exists_outline ls
      exact ⟨_,.line (fun c n hl => hopens ⟨c,n,hl⟩) hps⟩
termination_by ls.length

/-- The first line that closes a fence is one line. -/
theorem closing_unique {b b' rest rest' : List Text} {e e' : Text}
    (hb : ∀ l ∈ b, ¬Closes c n l) (hb' : ∀ l ∈ b', ¬Closes c n l) (he : Closes c n e)
    (he' : Closes c n e') (h : b ++ e::rest = b' ++ e'::rest') : b = b' ∧ e = e' ∧ rest = rest' := by
  induction b generalizing b' with
  | nil =>
    cases b' with
    | nil => exact ⟨rfl,List.cons.inj h⟩
    | cons l b' => exact absurd ((List.cons.inj h).1 ▸ he) (hb' l List.mem_cons_self)
  | cons l b ih =>
    rw [List.forall_mem_cons] at hb
    cases b' with
    | nil => exact absurd ((List.cons.inj h).1 ▸ he') hb.1
    | cons l' b' =>
      obtain ⟨rfl,htail⟩ := List.cons.inj h
      obtain ⟨rfl,hrest⟩ := ih hb.2 (List.forall_mem_cons.mp hb').2 htail
      exact ⟨rfl,hrest⟩

/-- A line opens a fence of one kind. -/
theorem Opens.unique {c' : Char} {n' : Nat} (hl : '\n' ∉ l) (h : Opens c n l) (h' : Opens c' n' l) :
    c' = c ∧ n' = n := by
  have hsome := ((opener?_eq_some_iff hl).mpr h').symm.trans ((opener?_eq_some_iff hl).mpr h)
  simpa using hsome

theorem Outline.unique (hls : ∀ l ∈ ls, '\n' ∉ l) (h : Outline ls ps) (h' : Outline ls qs) :
    qs = ps := by
  induction h generalizing qs with
  | nil => cases h'; rfl
  | line plain rest ih =>
    rw [List.forall_mem_cons] at hls
    cases h' with
    | line _ rest' => rw [ih hls.2 rest']
    | fence opening' _ _ _ => exact absurd opening' (plain _ _)
    | unclosed opening' _ => exact absurd opening' (plain _ _)
  | @fence o e b ls ps c n opening body closing rest ih =>
    rw [List.forall_mem_cons,List.forall_mem_append,List.forall_mem_cons] at hls
    -- both outlines cut the lines behind the opening one where the fence is closed first
    generalize hu : b ++ e::ls = u at h'
    cases h' with
    | line plain' _ => exact absurd opening (plain' _ _)
    | fence opening' body' closing' rest' =>
      obtain ⟨rfl,rfl⟩ := opening.unique hls.1 opening'
      obtain ⟨rfl,rfl,rfl⟩ := closing_unique body body' closing closing' hu
      rw [ih hls.2.2.2 rest']
    | unclosed opening' body' =>
      obtain ⟨rfl,rfl⟩ := opening.unique hls.1 opening'
      exact absurd closing (body' e (hu ▸ List.mem_append_right b List.mem_cons_self))
  | @unclosed o b c n opening body =>
    rw [List.forall_mem_cons] at hls
    cases h' with
    | line plain' _ => exact absurd opening (plain' _ _)
    | @fence _ e' b' _ _ _ _ opening' _ closing' _ =>
      obtain ⟨rfl,rfl⟩ := opening.unique hls.1 opening'
      exact absurd closing' (body e' (List.mem_append_right b' List.mem_cons_self))
    | unclosed _ _ => rfl

/-- A state that lines can lead to: a fence is one of at least three marks. -/
def State.Sound : State → Prop
  | .normal => True
  | .inside c n => IsMark c ∧ 3 ≤ n

theorem State.Sound.advance {s : State} (h : s.Sound) (l : Text) : (Fence.advance s l).Sound := by
  cases s with
  | normal =>
    rcases hl : opener? l with _ | ⟨c,n⟩
    · rw [advance_normal_eq_normal_iff.mpr hl]
      trivial
    · rw [Fence.advance,hl]
      exact isMark_of_opener? hl
  | inside c n =>
    rw [Fence.advance]
    split
    · trivial
    · exact h

theorem State.Sound.stateAfter {s : State} (h : s.Sound) (ls : List Text) :
    (Fence.stateAfter s ls).Sound := by
  induction ls generalizing s with
  | nil => exact h
  | cons l ls ih => exact ih (h.advance l)

/-- Lines have one outline, and a scan flags the lines of its fences. It passes every line on once and
in order, stands between fences or in one of at least three marks, and may be broken off and taken up
again anywhere. -/
theorem scan_by_fences :
    (∀ ls, (∀ l ∈ ls, '\n' ∉ l) → ∃ ps, Outline ls ps ∧ (∀ qs, Outline ls qs → qs = ps) ∧
      scan ls = ps.flatMap Part.flagged) ∧
    (∀ ls, (scan ls).map (·.1) = ls) ∧
    (∀ ls c n, stateAfter .normal ls = .inside c n → 3 ≤ n ∧ (c = '\x60' ∨ c = '~')) ∧
    ∀ s xs ys, scanFrom s (xs ++ ys) = scanFrom s xs ++ scanFrom (stateAfter s xs) ys := by
  refine ⟨fun ls hls => ?_,fun ls => map_fst_scanFrom .normal ls,fun ls c n h => ?_,scanFrom_append⟩
  · obtain ⟨ps,hps⟩ := exists_outline ls
    exact ⟨ps,hps,fun qs hqs => hps.unique hls hqs,hps.scan_eq hls⟩
  · have hsound := State.Sound.stateAfter (s := .normal) trivial ls
    rw [h] at hsound
    exact hsound.symm

/-- A fence keeps shorter runs and runs of the other mark, and closes behind blanks of any script; the
second one stays open. -/
theorem scan_by_fences_unclosed :
    let ls := ["a".toList," \t~~~~ x\x60".toList,"~~~".toList,"\u3000~~~~~ ".toList,
      "\x60\x60\x60".toList,"~~~".toList]
    let ps := [Part.line "a".toList,
      .fence " \t~~~~ x\x60".toList ["~~~".toList] (some "\u3000~~~~~ ".toList),
      .fence "\x60\x60\x60".toList ["~~~".toList] none]
    (∀ l ∈ ls, '\n' ∉ l) ∧ Outline ls ps ∧ scan ls = ps.flatMap Part.flagged ∧
      stateAfter .normal ls = .inside '\x60' 3 ∧ 3 ≤ 3 ∧ ('\x60' = '\x60' ∨ '\x60' = '~') := by
  intro ls ps
  have hls : ∀ l ∈ ls, '\n' ∉ l := by decide
  have hplain : ∀ c n, ¬Opens c n "a".toList := fun c n h => by
    cases (opener?_eq_some_iff (by decide)).mpr h
  have htilde : Opens '~' 4 " \t~~~~ x\x60".toList := (opener?_eq_some_iff (by decide)).mp (by decide)
  have hbacktick : Opens '\x60' 3 "\x60\x60\x60".toList :=
    (opener?_eq_some_iff (by decide)).mp (by decide)
  have hshort : ¬Closes '~' 4 "~~~".toList := mt closes_iff.mpr (by decide)
  have hother : ¬Closes '\x60' 3 "~~~".toList := mt closes_iff.mpr (by decide)
  have hclosing : Closes '~' 4 "\u3000~~~~~ ".toList := closes_iff.mp (by decide)
  have hps : Outline ls ps := .line hplain (.fence (b := ["~~~".toList]) htilde (by simpa using hshort)
    hclosing (.unclosed hbacktick (by simpa using hother)))
  obtain ⟨qs,-,hunique,hscan⟩ := scan_by_fences.1 ls hls
  rw [← hunique ps hps] at hscan
  have hstate : stateAfter .normal ls = .inside '\x60' 3 := by decide
  exact ⟨hls,hps,hscan,hstate,scan_by_fences.2.2.1 ls '\x60' 3 hstate⟩

end Fence
end Longform
