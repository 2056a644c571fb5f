import Longform.Markdown.Render
import Longform.Proofs.Markdown.Block

/-! The one fault of running text: an address in it has halves that cannot be written as bytes. A rule notes
the fault and declines, and the rest of the text is read on, so by induction over the rules and the depth of
labels the fault is still there in the end, and no other comes in between. -/
namespace Longform.Markdown
namespace Inline

variable {s s' : State} {e : Fault} {c : Context} {silent : Bool}

/-- The state has no other fault. -/
def Sane (s : State) : Prop := ∀ e, s.fault = some e → e = .encoding

theorem Sane.of_eq (h : Sane s) (hfault : s'.fault = s.fault) : Sane s' := fun e he => h e (hfault ▸ he)

theorem Sane.fail (h : Sane s) (he : e = .encoding) : Sane (s.fail e) := by
  intro e' hfault
  rw [State.fail,Option.or_eq_some_iff] at hfault
  rcases hfault with hfault | ⟨-,hfault⟩
  · exact h e' hfault
  · exact (Option.some.inj hfault).symm.trans he

theorem sane_ofText (t : Text) : Sane (State.ofText t) := fun _ h => nomatch h

/-- No other fault comes in. -/
def Keeps (f : State → State) : Prop := ∀ s, Sane s → Sane (f s)

def KeepsRule (rule : Bool → State → Step) : Prop := ∀ silent, Keeps fun s => (rule silent s).2

section State

@[simp] theorem flush_fault (s : State) : s.flush.fault = s.fault := by
  unfold State.flush
  split <;> rfl

@[simp] theorem push_fault (s : State) (t : Token) : (s.push t).fault = s.fault := by
  unfold State.push
  simp only
  split <;> split <;> simp

@[simp] theorem pushAll_fault (s : State) (ts : List Token) : (s.pushAll ts).fault = s.fault := by
  unfold State.pushAll
  induction ts generalizing s with
  | nil => rfl
  | cons t ts ih => rw [List.foldl_cons,ih,push_fault]

@[simp] theorem write_fault (s : State) (t : Text) : (s.write t).fault = s.fault := rfl

@[simp] theorem pushMarks_fault (mark : Char) (content : Text) (length : Nat) (f : Flanks) (n : Nat)
    (s : State) : (pushMarks mark content length f n s).fault = s.fault := by
  induction n generalizing s with
  | zero => rfl
  | succ n ih =>
    rw [pushMarks,ih]
    exact push_fault s _

@[simp] theorem findBackticks_fault (length fuel pos : Nat) (s : State) :
    (findBackticks length fuel pos s).2.fault = s.fault := by
  induction fuel generalizing pos s with
  | zero => rfl
  | succ fuel ih =>
    unfold findBackticks
    simp only
    split
    · rfl
    split
    · rfl
    · rw [ih]

@[simp] theorem decline_fault (s : State) : (decline s).2.fault = s.fault := rfl
@[simp] theorem accept_fault (s : State) (pos : Nat) : (accept s pos).2.fault = s.fault := rfl

end State

/-! Rules that have no fault. -/

section Plain

theorem plainText_fault : (plainText silent s).2.fault = s.fault := by
  unfold plainText
  simp only
  split
  · rfl
  · cases silent <;> rfl

theorem lineBreak_fault : (lineBreak silent s).2.fault = s.fault := by
  unfold lineBreak
  simp only
  split
  · rfl
  split <;> simp

theorem backslash_fault : (backslash silent s).2.fault = s.fault := by
  unfold backslash
  split
  · rfl
  split
  · rfl
  · cases silent <;> simp
  · cases silent <;> simp

theorem codeSpan_fault : (codeSpan silent s).2.fault = s.fault := by
  unfold codeSpan
  simp only
  split
  · rfl
  split
  · cases silent <;> simp
  have hfind := findBackticks_fault (s.runEnd (· = '\x60') (s.pos + 1) - s.pos) (s.src.size + 1)
    (s.runEnd (· = '\x60') (s.pos + 1)) s
  split <;> rename_i heq <;> rw [heq] at hfind
  · cases silent <;> simpa using hfind
  · split <;> simpa using hfind

theorem tildes_fault : (tildes silent s).2.fault = s.fault := by
  unfold tildes
  simp only
  split
  · rfl
  split
  · rfl
  · split <;> simp

theorem stars_fault : (stars silent s).2.fault = s.fault := by
  unfold stars
  split
  · split <;> simp
  · rfl

theorem rawTag_fault : (rawTag silent s).2.fault = s.fault := by
  unfold rawTag
  split
  · rfl
  split
  · rfl
  split
  · rfl
  split
  · rfl
  split <;> simp

theorem characterReference_fault : (characterReference silent s).2.fault = s.fault := by
  unfold characterReference
  simp only
  split
  · rfl
  split
  · rfl
  · cases silent <;> simp

end Plain

/-! Rules that write an address. -/

section Address

theorem keeps_bareAddress : KeepsRule bareAddress := by
  intro silent s h
  unfold bareAddress
  simp only
  split
  · exact h
  split
  · exact h
  split
  · exact h
  split
  · exact h
  split
  · exact h.fail (Address.written_error ‹_›)
  split
  · exact h
  split
  · exact h
  · exact h.of_eq (by simp)

theorem keeps_autolink : KeepsRule autolink := by
  intro silent s h
  unfold autolink
  simp only
  split
  · exact h
  split
  · exact h
  split
  · exact h
  · rename_i e hhref
    refine h.fail ?_
    split at hhref
    · exact Address.written_error (Option.some.inj hhref)
    split at hhref
    · exact Address.written_error (Option.some.inj hhref)
    · cases hhref
  · split
    · exact h
    · cases silent
      · exact h.of_eq (by simp)
      · exact h

theorem tokens_error {searchPrefix : Option Text} {w : Wikilink}
    (h : w.tokens searchPrefix = .error e) : e = .encoding := by
  unfold Wikilink.tokens at h
  split at h
  · cases h
  have hhref := map_eq_error_iff.mp h
  unfold Wikilink.href at hhref
  split at hhref
  · split at hhref
    · cases hhref
    have hencode := map_eq_error_iff.mp hhref
    unfold Text.percentEncode at hencode
    split at hencode
    · exact (Except.error.inj hencode).symm
    · cases hencode
  · cases hhref

theorem keeps_wikilink (searchPrefix : Option Text) : KeepsRule (wikilink searchPrefix) := by
  intro silent s h
  unfold wikilink
  simp only
  split
  · exact h
  split
  · exact h
  split
  · exact h
  split
  · exact h.fail (tokens_error ‹_›)
  · exact h.of_eq (by simp)

end Address

/-! Rules that read a label. -/

section Label

variable {skip inner : State → State}

theorem sane_labelEndFrom (hskip : Keeps skip) (noNested : Bool) (fuel depth : Nat) (h : Sane s) :
    Sane (labelEndFrom skip noNested fuel depth s).2 := by
  induction fuel generalizing depth s with
  | zero => exact h
  | succ fuel ih =>
    simp only [labelEndFrom]
    split
    · exact h
    split
    · exact h
    have hs' := hskip s h
    split
    · split
      · exact ih _ hs'
      split
      · exact hs'
      · exact ih _ hs'
    · exact ih _ hs'

theorem sane_labelEnd (hskip : Keeps skip) (noNested : Bool) (start : Nat) (h : Sane s) :
    Sane (labelEnd skip noNested start s).2 :=
  sane_labelEndFrom (s:={ s with pos := start + 1 }) hskip noNested (s.max + 2) 1 h

theorem readInlined_error {start : Nat} (h : readInlined s start = .error e) : e = .encoding := by
  unfold readInlined at h
  simp only at h
  split at h
  · cases h
  have hread := map_eq_error_iff.mp h
  unfold readDestination at hread
  split at hread
  · cases hread
  · exact Address.written_error (map_eq_error_iff.mp hread)

theorem sane_readReferenced (hskip : Keeps skip) (definitions : Dictionary Definition)
    (start stop pos : Nat) (h : Sane s) :
    Sane (readReferenced definitions skip start stop pos s).2 := by
  have hlabel := sane_labelEnd hskip false pos h
  unfold readReferenced
  simp only
  split
  · exact h
  -- The two outcomes of the look-up leave the same state.
  split
  all_goals
    split
    · split <;> rename_i heq <;> rw [heq] at hlabel <;> exact hlabel
    · exact h

theorem sane_readLink (hskip : Keeps skip) (definitions : Dictionary Definition) (h : Sane s) :
    Sane (readLink definitions skip s).2 := by
  have hlabel := sane_labelEnd hskip true s.pos h
  simp only [readLink]
  split <;> rename_i heq <;> rw [heq] at hlabel
  · exact hlabel
  split
  · split
    · exact hlabel.fail (readInlined_error ‹_›)
    · exact hlabel
    · exact hlabel
    · exact sane_readReferenced hskip definitions _ _ _ hlabel
  · exact sane_readReferenced hskip definitions _ _ _ hlabel

theorem sane_readImage (hskip : Keeps skip) (definitions : Dictionary Definition) (h : Sane s) :
    Sane (readImage definitions skip s).2 := by
  have hlabel := sane_labelEnd hskip false (s.pos + 1) h
  simp only [readImage]
  split <;> rename_i heq <;> rw [heq] at hlabel
  · exact hlabel
  split
  · split
    · exact hlabel.fail (readInlined_error ‹_›)
    · exact hlabel
    · exact hlabel
  · exact sane_readReferenced hskip definitions _ _ _ hlabel

theorem keeps_link (hskip : Keeps skip) (hinner : Keeps inner) (definitions : Dictionary Definition) :
    KeepsRule (link definitions skip inner) := by
  intro silent s h
  have hread := sane_readLink hskip definitions h
  simp only [link]
  split
  · exact h
  split <;> rename_i heq <;> rw [heq] at hread
  · exact hread
  split
  · exact hread
  refine (hinner _ ?_).of_eq (push_fault _ _)
  exact hread.of_eq (push_fault _ _)

theorem keeps_image {parse : Text → Except Fault (List Token)} (hskip : Keeps skip)
    (hparse : ∀ t e, parse t = .error e → e = .encoding) (definitions : Dictionary Definition) :
    KeepsRule (image definitions skip parse) := by
  intro silent s h
  have hread := sane_readImage hskip definitions h
  simp only [image]
  split
  · exact h
  split <;> rename_i heq <;> rw [heq] at hread
  · exact hread
  split
  · exact hread
  split
  · exact hread.fail (hparse _ _ ‹_›)
  · exact hread.of_eq (by simp)

end Label

/-! Reading on. -/

section Reading

/-- What the rules are given keeps the state, too. -/
structure Readers.Keep (r : Readers) : Prop where
  skip : Keeps r.skip
  inner : Keeps r.inner
  parse : ∀ t e, r.parse t = .error e → e = .encoding

theorem keepsRule_of_mem_rules {r : Readers} (hr : r.Keep) {rule : Bool → State → Step}
    (h : rule ∈ rules c r) : KeepsRule rule := by
  simp only [rules,List.mem_cons,List.not_mem_nil,or_false] at h
  rcases h with rfl | rfl | rfl | rfl | rfl | rfl | rfl | rfl | rfl | rfl | rfl | rfl | rfl
  · exact fun _ _ h => h.of_eq plainText_fault
  · exact keeps_bareAddress
  · exact fun _ _ h => h.of_eq lineBreak_fault
  · exact fun _ _ h => h.of_eq backslash_fault
  · exact fun _ _ h => h.of_eq codeSpan_fault
  · exact fun _ _ h => h.of_eq tildes_fault
  · exact fun _ _ h => h.of_eq stars_fault
  · exact keeps_wikilink c.searchPrefix
  · exact keeps_link hr.skip hr.inner c.definitions
  · exact keeps_image hr.skip hr.parse c.definitions
  · exact keeps_autolink
  · exact fun _ _ h => h.of_eq rawTag_fault
  · exact fun _ _ h => h.of_eq characterReference_fault

theorem keeps_tryRules {rules : List (Bool → State → Step)} (hrules : ∀ rule ∈ rules, KeepsRule rule) :
    KeepsRule (tryRules rules) := by
  intro silent
  induction rules with
  | nil => exact fun _ h => h
  | cons rule rest ih =>
    intro s h
    have hrule : Sane (rule silent s).2 := hrules rule (by simp) silent s h
    simp only [tryRules]
    split <;> rename_i heq <;> rw [heq] at hrule
    · exact hrule
    · exact ih (fun r hr => hrules r (by simp [hr])) _ hrule

theorem keeps_skipToken (n : Nat) : Keeps (skipToken c n) := by
  induction n with
  | zero =>
    intro s h
    unfold skipToken
    split <;> exact h
  | succ n ih =>
    intro s h
    have hreaders : Readers.Keep ⟨skipToken c n,id,fun _ => .ok []⟩ := ⟨ih,fun _ h => h,nofun⟩
    have hrules : Sane (tryRules (rules c _) true s).2 :=
      keeps_tryRules (fun _ => keepsRule_of_mem_rules hreaders) true s h
    unfold skipToken
    split
    · exact h
    split <;> rename_i heq <;> rw [heq] at hrules <;> exact hrules

theorem keeps_readFrom {r : Readers} (hr : r.Keep) (fuel : Nat) : Keeps (readFrom c r fuel) := by
  induction fuel with
  | zero => exact fun s h => h.of_eq (flush_fault s)
  | succ fuel ih =>
    intro s h
    have hrules : Sane (tryRules (rules c r) false s).2 :=
      keeps_tryRules (fun _ => keepsRule_of_mem_rules hr) false s h
    unfold readFrom
    split
    · exact h.of_eq (flush_fault s)
    have hstep : Sane (if s.level < maxNesting then tryRules (rules c r) false s else decline s).2 := by
      split
      · exact hrules
      · exact h
    split <;> rename_i heq <;> rw [heq] at hstep <;> exact ih _ hstep

theorem outcome_error (h : Sane s) (he : outcome s = .error e) : e = .encoding := by
  unfold outcome at he
  split at he
  · cases he
    exact h _ ‹_›
  · cases he

/-- The depth to which labels nest does not matter: by induction on it, no level adds a fault. -/
theorem keeps_read (depth : Nat) : Keeps (read c depth) := by
  induction depth with
  | zero => exact fun s h => h.of_eq (flush_fault s)
  | succ depth ih =>
    intro s h
    have hparse : ∀ t e, outcome (read c depth (State.ofText t)) = .error e → e = .encoding :=
      fun t _ => outcome_error (ih _ (sane_ofText t))
    exact keeps_readFrom ⟨fun s hs => keeps_skipToken _ s hs,ih,hparse⟩ _ s h

theorem parse_error {t : Text} (h : parse c t = .error e) : e = .encoding :=
  outcome_error (keeps_read _ _ (sane_ofText t)) h

end Reading
end Inline

/-! Bare addresses. -/

section BareLink

variable {e : Fault}

theorem cut_error {level : Int} {pos : Nat} {t : Text} {ls : List Bare.Link}
    (h : BareLink.cut level pos t ls = .error e) : e = .encoding := by
  induction ls generalizing pos t with
  | nil => cases h
  | cons l ls ih =>
    rw [BareLink.cut] at h
    rcases bind_eq_error_iff.mp h with h | ⟨href,_,h⟩
    · exact Address.written_error h
    split at h
    · rcases bind_eq_error_iff.mp h with h | ⟨rest,_,h⟩
      · exact ih h
      · cases h
    · exact ih h

theorem split_error {before : Option Token} {t : Token} (h : BareLink.split before t = .error e) :
    e = .encoding := by
  unfold BareLink.split at h
  split at h
  · cases h
  · exact cut_error h

theorem linkFrom_error {fuel : Nat} {raw : Int} {before after : List Token}
    (h : BareLink.linkFrom fuel raw before after = .error e) : e = .encoding := by
  induction fuel generalizing raw before after with
  | zero => cases h
  | succ fuel ih =>
    cases before with
    | nil => cases h
    | cons t before =>
      have hnext : ∀ raw : Int, (if raw ≤ 0 && t.kind = "text" then
          BareLink.split before.head? t >>= fun pieces => BareLink.linkFrom fuel raw before (pieces ++ after)
          else BareLink.linkFrom fuel raw before (t::after)) = .error e → e = .encoding := by
        intro raw h
        split at h
        · rcases bind_eq_error_iff.mp h with h | ⟨pieces,_,h⟩
          · exact split_error h
          · exact ih h
        · exact ih h
      rw [BareLink.linkFrom] at h
      split at h
      · exact ih h
      · exact hnext _ h

theorem linkToken_error {t : Token} (h : BareLink.linkToken t = .error e) : e = .encoding := by
  unfold BareLink.linkToken at h
  split at h
  · split at h
    · exact linkFrom_error (map_eq_error_iff.mp h)
    · cases h
  · cases h

end BareLink

section Document

variable {e : Fault} {searchPrefix : Option Text} {t : Text}

theorem readInline_error {c : Inline.Context} {u : Token} (h : readInline c u = .error e) :
    e = .encoding := by
  unfold readInline at h
  split at h
  · exact Inline.parse_error (map_eq_error_iff.mp h)
  · cases h

theorem finish_error {c : Inline.Context} {ts : List Token} (h : finish c ts = .error e) :
    e = .encoding := by
  rcases bind_eq_error_iff.mp h with h | ⟨us,_,h⟩
  · obtain ⟨t,_,h⟩ := exists_of_mapM_error h
    exact readInline_error h
  rcases bind_eq_error_iff.mp h with h | ⟨vs,_,h⟩
  · obtain ⟨t,_,h⟩ := exists_of_mapM_error h
    exact linkToken_error h
  · cases h

/-- A document has the faults of its blocks and that of its running text. -/
theorem parse_error (h : parse searchPrefix t = .error e) :
    e = .position ∧ Block.parse (normalize t) = .error .position ∨ e = .encoding := by
  rcases bind_eq_error_iff.mp h with h | ⟨r,_,h⟩
  · rcases Block.parse_error h with rfl | he
    · exact .inl ⟨rfl,h⟩
    · exact .inr he
  · exact .inr (finish_error h)

end Document
end Longform.Markdown
