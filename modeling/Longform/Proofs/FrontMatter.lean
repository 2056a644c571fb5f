import Longform.FrontMatter
import Longform.Proofs.Text.Lines
import Longform.Proofs.Text.Search

/-! Front matter line by line. Below a rule that is the first line, a block ends at the first line from the
third one on that begins with a rule; what stands behind the rule on that line belongs to the body. This is
the block between the rule and the next rule exactly when that line is a rule and the second line is none. -/
namespace Longform
namespace FrontMatter

def rule : Text := "---".toList

def isRule (l : Text) : Bool := l = rule

/-- Lines that begin with a rule, whatever follows it. -/
def beginsRule (l : Text) : Bool := Text.startsWith rule l

/-- The lines above the first one that satisfies `p`, that line, and the lines below it. -/
def cutFirst (p : Text → Bool) : List Text → Option (List Text × Text × List Text)
  | [] => none
  | l :: ls =>
    if p l then some ([], l, ls)
    else (cutFirst p ls).map fun (above, last, below) => (l :: above, last, below)

/-- The lines of the block and those of the body, as the block is found. -/
def blockLines : List Text → Option (List Text × List Text)
  | first :: second :: ls =>
    if isRule first then
      (cutFirst beginsRule ls).map fun (above, last, below) => (second :: above, last.drop 3 :: below)
    else none
  | _ => none

/-- The lines of the block and those of the body, when a block is what stands between two rules. -/
def ruledLines : List Text → Option (List Text × List Text)
  | first :: ls =>
    if isRule first then (cutFirst isRule ls).map fun (above, _, below) => (above, below) else none
  | [] => none

/-- The text of a block, and the trimmed body. -/
def joined (p : List Text × List Text) : Text × Text :=
  (Text.joinLines p.1, Text.trim (Text.joinLines p.2))

/-- Settings and body of a text, when its block and its body are found. -/
def settle (room : Nat) (t : Text) : Option (Text × Text) → Compile (Option Metadata × Text)
  | none => pure (some [], Text.trim t)
  | some (source, body) => match decode room source with
    | .ok settings => pure (some settings, body)
    | .error e =>
      if isUndecodable e then do
        Compile.note .frontMatter
        pure (none, body)
      else throw e

/-- Below a rule that is the first line stands no other rule, and the next line that begins with one is
one. -/
def EndsAtRule (ls : List Text) : Prop :=
  ∀ second below, ls = rule::second::below →
    second ≠ rule ∧ ∀ p ∈ cutFirst beginsRule below, p.2.1 = rule

theorem split_eq_settle (room : Nat) (t : Text) :
    split room t = settle room t ((cut t).map fun p => (p.1,Text.trim p.2)) := by
  unfold split
  cases cut t <;> rfl

/-! The block as it is found. -/

theorem beginsRule_iff {l : Text} : beginsRule l = true ↔ ∃ r, l = rule ++ r :=
  Text.startsWith_iff

theorem newline_not_mem_rule : '\n' ∉ rule := by decide

theorem cutAtRule_cons_of_ne {c : Char} (h : c ≠ '\n') (r : Text) :
    cutAtRule (c::r) = (cutAtRule r).map fun p => (c::p.1,p.2) := by
  have hafter : Text.after? "\n---".toList (c::r) = none := by
    show (if '\n' = c then Text.after? rule r else none) = none
    rw [if_neg (Ne.symm h)]
  rw [cutAtRule,hafter]

theorem cutAtRule_newline (r : Text) : cutAtRule ('\n' :: r) = match Text.after? rule r with
    | some rest => some ([],rest)
    | none => (cutAtRule r).map fun p => ('\n' :: p.1,p.2) := rfl

/-- No rule is looked for within a line. -/
theorem cutAtRule_append {k : Text} (h : '\n' ∉ k) (r : Text) :
    cutAtRule (k ++ r) = (cutAtRule r).map fun p => (k ++ p.1,p.2) := by
  induction k with
  | nil => simp
  | cons c k ih =>
    rw [List.mem_cons,not_or] at h
    rw [List.cons_append,cutAtRule_cons_of_ne (Ne.symm h.1),ih h.2,Option.map_map]
    rfl

/-- The lines below a line are looked at one after the other. -/
theorem cutAtRule_below {ls : List Text} (h : ∀ l ∈ ls, '\n' ∉ l) : cutAtRule (Text.below ls) =
    (cutFirst beginsRule ls).map fun p => (Text.below p.1,p.2.1.drop 3 ++ Text.below p.2.2) := by
  induction ls with
  | nil => rfl
  | cons l ls ih =>
    rw [List.forall_mem_cons] at h
    rw [Text.below_cons,cutAtRule_newline,cutFirst]
    cases hl : beginsRule l with
    | true =>
      obtain ⟨r,rfl⟩ := beginsRule_iff.mp hl
      rw [List.append_assoc,Text.after?_append]
      rfl
    | false =>
      have hafter := Text.after?_append_of_none newline_not_mem_rule (Text.head?_below ls)
        (Text.after?_eq_none hl)
      rw [hafter,cutAtRule_append h.1,ih h.2]
      simp [Option.map_map,Function.comp_def,Text.below_cons]

theorem after?_first {first : Text} (h : '\n' ∉ first) (r : Text) :
    Text.after? "---\n".toList (first ++ '\n' :: r) = if isRule first then some r else none := by
  have hopen : "---\n".toList = rule ++ ['\n'] := rfl
  by_cases hfirst : first = rule
  · subst hfirst
    have happ : rule ++ '\n' :: r = (rule ++ ['\n']) ++ r := by simp
    rw [hopen,happ,Text.after?_append]
    rfl
  · have hnot : isRule first = false := decide_eq_false hfirst
    have hafter : Text.after? "---\n".toList (first ++ '\n' :: r) = none := by
      refine Option.eq_none_iff_forall_ne_some.mpr fun u hu => hfirst ?_
      have happ := Text.eq_append_of_after? hu
      rw [hopen,List.append_assoc,List.singleton_append] at happ
      -- both texts are cut at their first line break
      have hcut := Text.cutAt_append h r
      rw [happ,Text.cutAt_append newline_not_mem_rule] at hcut
      exact (congrArg Prod.fst (Option.some.inj hcut)).symm
    rw [hnot,hafter]
    rfl

theorem cut_eq (t : Text) : cut t =
    (blockLines (Text.lines t)).map fun p => (Text.joinLines p.1,Text.joinLines p.2) := by
  have hlines : ∀ l ∈ Text.lines t, '\n' ∉ l := fun l hl => Text.newline_not_mem_lines hl
  have hjoin := Text.joinLines_lines t
  unfold cut
  match hls : Text.lines t with
  | [] =>
    rw [hls] at hjoin
    rw [← hjoin]
    rfl
  | [first] =>
    have hfirst : '\n' ∉ first := hlines first (by simp [hls])
    have ht : t = first := by rw [← hjoin,hls,Text.joinLines,Text.join]
    have hafter : Text.after? "---\n".toList t = none := by
      refine Option.eq_none_iff_forall_ne_some.mpr fun u hu => hfirst ?_
      rw [← ht,Text.eq_append_of_after? hu]
      exact List.mem_append_left u (by decide)
    rw [hafter]
    rfl
  | first::second::ls =>
    rw [hls,List.forall_mem_cons,List.forall_mem_cons] at hlines
    obtain ⟨hfirst,hsecond,hls'⟩ := hlines
    rw [hls,Text.joinLines_cons,Text.below_cons] at hjoin
    rw [← hjoin,after?_first hfirst,blockLines]
    cases isRule first with
    | false => rfl
    | true =>
      simp only [if_true,Option.bind_some,cutAtRule_append hsecond,cutAtRule_below hls',Option.map_map]
      congr 1
      funext p
      simp [Text.joinLines_cons]

/-! The block between two rules. -/

theorem exists_of_cutFirst {p : Text → Bool} {ls above below : List Text} {last : Text}
    (h : cutFirst p ls = some (above,last,below)) :
    ls = above ++ last::below ∧ p last = true ∧ ∀ l ∈ above, p l = false := by
  induction ls generalizing above with
  | nil => cases h
  | cons l ls ih =>
    rw [cutFirst] at h
    split at h
    · cases h
      exact ⟨rfl,‹_›,List.forall_mem_nil _⟩
    · rename_i hl
      obtain ⟨⟨above',last',below'⟩,hrest,heq⟩ := Option.map_eq_some_iff.mp h
      cases heq
      obtain ⟨rfl,hlast,habove⟩ := ih hrest
      exact ⟨rfl,hlast,List.forall_mem_cons.mpr ⟨Bool.eq_false_iff.mpr hl,habove⟩⟩

theorem cutFirst_append {p : Text → Bool} {above : List Text} (h : ∀ l ∈ above, p l = false)
    (ls : List Text) : cutFirst p (above ++ ls) =
      (cutFirst p ls).map fun q => (above ++ q.1,q.2.1,q.2.2) := by
  induction above with
  | nil => simp
  | cons l above ih =>
    rw [List.forall_mem_cons] at h
    rw [List.cons_append,cutFirst,if_neg (by simp [h.1]),ih h.2,Option.map_map]
    rfl

theorem beginsRule_of_isRule {l : Text} (h : isRule l = true) : beginsRule l = true :=
  beginsRule_iff.mpr ⟨[],by simpa using of_decide_eq_true h⟩

theorem isRule_eq_false {l : Text} (h : beginsRule l = false) : isRule l = false :=
  Bool.eq_false_iff.mpr fun hl => by simp [beginsRule_of_isRule hl] at h

theorem cutFirst_isRule_of_none {ls : List Text} (h : cutFirst beginsRule ls = none) :
    cutFirst isRule ls = none := by
  induction ls with
  | nil => rfl
  | cons l ls ih =>
    rw [cutFirst] at h
    split at h
    · cases h
    · rename_i hl
      have hnot := isRule_eq_false (Bool.eq_false_iff.mpr hl)
      rw [cutFirst,hnot,ih (Option.map_eq_none_iff.mp h)]
      rfl

theorem ruledLines_cons {second : Text} (h : second ≠ rule) (ls : List Text) :
    ruledLines (rule::second::ls) = (cutFirst isRule ls).map fun p => (second::p.1,p.2.2) := by
  have hrule : isRule rule = true := rfl
  have hsecond : isRule second = false := decide_eq_false h
  rw [ruledLines,if_pos hrule,cutFirst,hsecond]
  simp [Option.map_map,Function.comp_def]

/-- A block whose lines are more than those of another is another text. -/
theorem joinLines_ne (l k : Text) (ls ks : List Text) :
    Text.joinLines (l::(ls ++ k::ks)) ≠ Text.joinLines (l::ls) := by
  intro h
  rw [Text.joinLines_cons,Text.joinLines_cons,Text.below_append,List.append_cancel_left_eq] at h
  simp [Text.below_cons] at h

/-- Nothing is left of the rule that ends a block. -/
theorem trim_joinLines_nil_cons (ls : List Text) :
    Text.trim (Text.joinLines ([]::ls)) = Text.trim (Text.joinLines ls) := by
  cases ls with
  | nil => rfl
  | cons l ls =>
    rw [Text.joinLines_cons,Text.below_eq (List.cons_ne_nil l ls)]
    rfl

/-- An empty block is none, or the rule below it is taken for its content. -/
theorem blockLines_rule_ne (ls : List Text) :
    (blockLines (rule::rule::ls)).map joined ≠ (ruledLines (rule::rule::ls)).map joined := by
  have hruled : ruledLines (rule::rule::ls) = some ([],ls) := rfl
  rw [hruled]
  intro h
  obtain ⟨p,hp,heq⟩ := Option.map_eq_some_iff.mp h
  obtain ⟨q,-,rfl⟩ := Option.map_eq_some_iff.mp hp
  have hsource : Text.joinLines (rule::q.1) = [] := congrArg Prod.fst heq
  rw [Text.joinLines_cons] at hsource
  cases hsource

/-- The block that is found is the block between two rules exactly when no other rule opens it and a rule
ends it. -/
theorem blockLines_eq_ruledLines_iff (second : Text) (ls : List Text) :
    (blockLines (rule::second::ls)).map joined = (ruledLines (rule::second::ls)).map joined ↔
      second ≠ rule ∧ ∀ p ∈ cutFirst beginsRule ls, p.2.1 = rule := by
  by_cases hsecond : second = rule
  · subst hsecond
    exact iff_of_false (blockLines_rule_ne ls) fun h => h.1 rfl
  have hblock : blockLines (rule::second::ls) =
      (cutFirst beginsRule ls).map fun p => (second::p.1,p.2.1.drop 3::p.2.2) := rfl
  rw [hblock,ruledLines_cons hsecond]
  cases hcut : cutFirst beginsRule ls with
  | none =>
    rw [cutFirst_isRule_of_none hcut]
    exact iff_of_true rfl ⟨hsecond,by simp⟩
  | some p =>
    obtain ⟨above,last,below⟩ := p
    obtain ⟨rfl,-,habove⟩ := exists_of_cutFirst hcut
    have hnone : ∀ l ∈ above, isRule l = false := fun l hl => isRule_eq_false (habove l hl)
    rw [cutFirst_append hnone]
    by_cases hlast : last = rule
    · subst hlast
      refine iff_of_true ?_ ⟨hsecond,by simp⟩
      have hfound : cutFirst isRule (rule::below) = some ([],rule,below) := rfl
      simp only [hfound,Option.map_some,List.append_nil]
      exact congrArg some (Prod.ext rfl (trim_joinLines_nil_cons below))
    · refine iff_of_false (fun h => ?_) fun h => hlast (h.2 _ rfl)
      have hnot : isRule last = false := decide_eq_false hlast
      rw [cutFirst,hnot] at h
      obtain ⟨q,hq,heq⟩ := Option.map_eq_some_iff.mp h.symm
      obtain ⟨q',hq',rfl⟩ := Option.map_eq_some_iff.mp hq
      obtain ⟨q'',hq'',rfl⟩ := Option.map_eq_some_iff.mp hq'
      obtain ⟨r,-,rfl⟩ := Option.map_eq_some_iff.mp hq''
      exact joinLines_ne second last above r.1 (congrArg Prod.fst heq)

/-- Settings and body are those of the block as it is found by lines, which is the block between two rules
exactly when that one ends at a rule and is not empty. -/
theorem split_by_lines (room : Nat) (t : Text) :
    split room t = settle room t ((blockLines (Text.lines t)).map joined) ∧
      ((blockLines (Text.lines t)).map joined = (ruledLines (Text.lines t)).map joined ↔
        EndsAtRule (Text.lines t)) := by
  constructor
  · rw [split_eq_settle,cut_eq,Option.map_map]
    rfl
  unfold EndsAtRule
  match Text.lines t with
  | [] => exact iff_of_true rfl fun _ _ h => nomatch h
  | [first] =>
    have hruled : ruledLines [first] = none := by
      simp [ruledLines,cutFirst]
    rw [hruled]
    exact iff_of_true rfl fun _ _ h => nomatch h
  | first::second::ls =>
    by_cases hfirst : first = rule
    · subst hfirst
      rw [blockLines_eq_ruledLines_iff]
      refine ⟨fun h k below heq => ?_,fun h => h second ls rfl⟩
      cases heq
      exact h
    · have hnot : isRule first = false := decide_eq_false hfirst
      refine iff_of_true (by simp [blockLines,ruledLines,hnot]) fun k below heq => ?_
      exact absurd (List.cons.inj heq).1 hfirst

/-- A longer rule ends a block and begins the body. -/
example : (blockLines (Text.lines "---\na: 1\n----\nb".toList)).map joined =
    some ("a: 1".toList,"-\nb".toList) := rfl

/-- An empty block is left in the body. -/
theorem split_ne_ruled :
    ¬∀ room t, split room t = settle room t ((ruledLines (Text.lines t)).map joined) := by
  intro h
  let t : Text := "---\n---\nx".toList
  have hsplit : split 1 t = pure (some [],t) := rfl
  have hlines : (ruledLines (Text.lines t)).map joined = some ([],"x".toList) := rfl
  have hsettle : settle 1 t (some ([],"x".toList)) = pure (some [],"x".toList) := rfl
  have heq := h 1 t
  rw [hsplit,hlines,hsettle] at heq
  have hbody : t = "x".toList :=
    congrArg Prod.snd (Except.ok.inj (congrArg (fun c : Compile _ => c.run.1) heq))
  exact absurd hbody (by decide)

end FrontMatter
end Longform
