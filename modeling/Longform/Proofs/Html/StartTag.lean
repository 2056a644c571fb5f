import Longform.Html.Tag
import Longform.Proofs.Html.Spelling
import Longform.Proofs.Text.Search

/-! Start tags as the writers write them: a name, and attributes each with a value in quotes. They are
read with that name, those attributes and nothing else, whatever follows. -/
namespace Longform.Html

/-- Characters that may make up the name of an element behind its first letter. -/
def IsTagName (name : Text) : Prop := ∀ c ∈ name, endsName c = false

instance (name : Text) : Decidable (IsTagName name) := List.decidableBAll _ name

/-- A name that attributes can have. -/
def IsAttributeName (k : Text) : Prop :=
  ∃ c r, k = c::r ∧ isNameStart c = true ∧ ∀ d ∈ r, isNamePart d = true

theorem isAttributeName_cons {c : Char} {r : Text} :
    IsAttributeName (c::r) ↔ isNameStart c = true ∧ r.all isNamePart = true := by
  constructor
  · rintro ⟨_,_,h,hstart,hrest⟩
    obtain ⟨rfl,rfl⟩ := List.cons.inj h
    exact ⟨hstart,List.all_eq_true.mpr hrest⟩
  · rintro ⟨hstart,hrest⟩
    exact ⟨c,r,rfl,hstart,List.all_eq_true.mp hrest⟩

instance (k : Text) : Decidable (IsAttributeName k) :=
  match k with
  | [] => isFalse fun ⟨_,_,h,_⟩ => List.cons_ne_nil _ _ h.symm
  | _::_ => decidable_of_iff _ isAttributeName_cons.symm

/-- A value in quotes, and the value that is read. -/
def Quotes (q v : Text) : Prop :=
  ∃ mark s, (mark = '"' ∨ mark = '\'') ∧ mark ∉ s ∧ q = mark::(s ++ [mark]) ∧ unescape s = .ok v

/-- A value in quotes, whatever is read of it. -/
def IsQuoted (q : Text) : Prop :=
  ∃ mark s, (mark = '"' ∨ mark = '\'') ∧ mark ∉ s ∧ q = mark::(s ++ [mark])

theorem Quotes.isQuoted {q v : Text} (h : Quotes q v) : IsQuoted q := by
  obtain ⟨mark,s,hmark,hs,hq,-⟩ := h
  exact ⟨mark,s,hmark,hs,hq⟩

/-- A text in double quotes. -/
def doubleQuoted (s : Text) : Text := '"' :: s ++ ['"']

/-- Whatever references a text holds, in quotes they are read. -/
theorem quotes_unescape {s v : Text} (h : '"' ∉ s) (hv : unescape s = .ok v) :
    Quotes (doubleQuoted s) v :=
  ⟨'"',s,.inl rfl,h,rfl,hv⟩

theorem isQuoted_doubleQuoted {s : Text} (h : '"' ∉ s) : IsQuoted (doubleQuoted s) :=
  ⟨'"',s,.inl rfl,h,rfl⟩

theorem quotes_of_not_mem {s v : Text} (h : '"' ∉ s) (hs : Spells s v) : Quotes (doubleQuoted s) v :=
  quotes_unescape h (unescape_of_spells hs)

/-- A value that needs no references. -/
theorem quotes_plain {v : Text} (hquote : '"' ∉ v) (hamp : '&' ∉ v) : Quotes (doubleQuoted v) v :=
  quotes_of_not_mem hquote (spells_self hamp)

theorem quote_not_mem_escapeAttribute (v : Text) : '"' ∉ Text.escapeAttribute v := by
  intro h
  obtain ⟨c,-,hc⟩ := List.mem_flatMap.mp h
  unfold Text.escapeAttributeChar Text.escapeContentChar at hc
  split at hc
  · exact absurd hc (by decide)
  rename_i hquote
  split at hc
  · exact absurd hc (by decide)
  split at hc
  · exact absurd hc (by decide)
  split at hc
  · exact absurd hc (by decide)
  split at hc
  · exact absurd hc (by decide)
  · exact hquote (List.mem_singleton.mp hc).symm

theorem quotes_escapeAttribute (v : Text) : Quotes (doubleQuoted (Text.escapeAttribute v)) v :=
  quotes_of_not_mem (quote_not_mem_escapeAttribute v) (spells_escapeAttribute v)

/-- The value of an attribute in the markup of a tree. -/
theorem quotes_quotedValue (v : Text) : Quotes (quotedValue (Text.escapeContent v)) v := by
  unfold quotedValue
  split
  · exact quotes_of_not_mem ‹_› (spells_escapeContent v)
  split
  · exact ⟨'\'',_,.inr rfl,‹_›,rfl,unescape_of_spells (spells_escapeContent v)⟩
  · refine quotes_of_not_mem ?_ ?_
    · intro h
      obtain ⟨c,-,hc⟩ := List.mem_flatMap.mp h
      split at hc
      · exact absurd hc (by decide)
      · rename_i hne
        exact hne (List.mem_singleton.mp hc).symm
    · rw [Text.escapeContent,List.flatMap_assoc]
      refine spells_flatMap (fun c => ?_) v
      by_cases hc : c = '"'
      · subst hc
        show Spells "&quot;".toList ['"']
        exact spells_reference (by simp [references])
      · have hrest : ((Text.escapeContentChar c).flatMap fun d =>
            if d = '"' then "&quot;".toList else [d]) = Text.escapeContentChar c := by
          unfold Text.escapeContentChar
          split
          · rfl
          split
          · rfl
          split
          · rfl
          · rw [List.flatMap_singleton,if_neg hc]
        rw [hrest]
        exact spells_escapeContentChar c

/-! Reading. -/

theorem not_isBlank_of_quote {mark : Char} (h : mark = '"' ∨ mark = '\'') :
    Text.isBlank mark = false := by
  rcases h with rfl | rfl <;> rfl

theorem quotedPart?_append {mark : Char} {s : Text} (hmark : mark = '"' ∨ mark = '\'')
    (h : mark ∉ s) (rest : Text) :
    quotedPart? (mark::(s ++ mark::rest)) = some (mark::(s ++ [mark])) := by
  have hinside : (s ++ mark::rest).takeWhile (· ≠ mark) = s := by
    refine (Text.takeWhile_append_stop (fun c hc => ?_) (by simp)).1
    simpa using fun he : c = mark => h (he ▸ hc)
  have hquote : (mark = '\'' || mark = '"') = true := by
    rcases hmark with rfl | rfl <;> rfl
  have hlength : s.length < (s ++ mark::rest).length := by simp
  simp only [quotedPart?,hquote,if_true,hinside,if_pos hlength]
  rfl

/-- A value in quotes behind an equality sign. -/
theorem value?_quoted {q : Text} (h : IsQuoted q) (rest : Text) :
    value? ('=' :: (q ++ rest)) = some (q,rest) := by
  obtain ⟨mark,s,hmark,hs,rfl⟩ := h
  have hne : mark ≠ '=' := by rcases hmark with rfl | rfl <;> decide
  have hblank := not_isBlank_of_quote hmark
  have hequal : Text.isBlank '=' = false := rfl
  have happ : mark::(s ++ [mark]) ++ rest = mark::(s ++ mark::rest) := by simp
  have hquoted := quotedPart?_append hmark hs rest
  have hsigns : ('=' :: mark::(s ++ mark::rest)).takeWhile (· = '=') = ['='] := by simp [hne]
  have hbehind : ('=' :: mark::(s ++ mark::rest)).dropWhile Text.isBlank =
      '=' :: mark::(s ++ mark::rest) := by simp [hequal]
  have hquote : (mark::(s ++ mark::rest)).dropWhile Text.isBlank = mark::(s ++ mark::rest) := by
    simp [hblank]
  have hdrop : (mark::(s ++ mark::rest)).drop (mark::(s ++ [mark])).length = rest := by
    rw [← happ,List.drop_left]
  unfold value?
  simp only [happ,hbehind,hsigns]
  simp only [List.isEmpty_cons,Bool.false_eq_true,if_false,List.length_singleton,List.drop_succ_cons,
    List.drop_zero,hquote,hquoted,hdrop]

/-- Attributes as they stand in a start tag. -/
def attributesText (quote : Text → Text) (attrs : Dictionary Text) : Text :=
  attrs.flatMap fun a => ' ' :: a.1 ++ '=' :: quote a.2

/-- Names and quotes of attributes are understood. -/
def Attributable (quote : Text → Text) (attrs : Dictionary Text) : Prop :=
  ∀ a ∈ attrs, IsAttributeName a.1 ∧ Quotes (quote a.2) a.2

/-- It is seen where each attribute ends. -/
def Separable (quote : Text → Text) (attrs : Dictionary Text) : Prop :=
  ∀ a ∈ attrs, IsAttributeName a.1 ∧ IsQuoted (quote a.2)

theorem Attributable.separable {quote : Text → Text} {attrs : Dictionary Text}
    (h : Attributable quote attrs) : Separable quote attrs := fun a ha =>
  ⟨(h a ha).1,(h a ha).2.isQuoted⟩

theorem attribute?_quoted {before : Char} {k q : Text} (hbefore : precedesAttribute before = true)
    (hk : IsAttributeName k) (hq : IsQuoted q) (rest : Text) :
    attribute? before (k ++ '=' :: (q ++ rest)) = some (⟨k,some q⟩,skipFiller rest) := by
  obtain ⟨c,r,rfl,hc,hr⟩ := hk
  have hequal : ∀ d ∈ ('=' :: (q ++ rest)).head?, isNamePart d = false := by simp [isNamePart]
  have hstop := Text.takeWhile_append_stop hr hequal
  simp only [List.cons_append,attribute?,hbefore,hc,Bool.and_self,if_true,hstop.1,hstop.2,
    value?_quoted hq]

/-- How a start tag ends, and what follows it. -/
inductive TagEnd : Text → Ending → Text → Prop
  | closed (rest : Text) : TagEnd ('>' :: rest) .closed rest
  | selfClosed (rest : Text) : TagEnd ('/' :: '>' :: rest) .selfClosed rest

variable {quote : Text → Text} {attrs : Dictionary Text} {close rest : Text} {ending : Ending}

theorem TagEnd.skipFiller_eq (h : TagEnd close ending rest) : skipFiller close = close := by
  cases h with
  | closed rest => simp [skipFiller,Text.isBlank]
  | selfClosed rest => simp [skipFiller,Text.isBlank]

theorem TagEnd.attribute?_eq (h : TagEnd close ending rest) (before : Char) :
    attribute? before close = none := by
  cases h with
  | closed rest => simp [attribute?,isNameStart]
  | selfClosed rest => simp [attribute?,isNameStart]

theorem skipFiller_attribute {k : Text} (hk : IsAttributeName k) (more : Text) :
    skipFiller (' ' :: k ++ more) = k ++ more := by
  obtain ⟨c,r,rfl,hc,-⟩ := hk
  have hblank : Text.isBlank c = false ∧ c ≠ '/' := by
    simp only [isNameStart,Bool.not_eq_true',Bool.or_eq_false_iff,decide_eq_false_iff_not] at hc
    exact hc.1
  have hspace : Text.isBlank ' ' = true := rfl
  simp [skipFiller,hspace,hblank]

/-- Behind an attribute with a blank, the blank is what the reader saw last. -/
theorem lastOr_take_append (before : Char) (s rest : Text) :
    lastOr before ((s ++ ' ' :: rest).take ((s ++ ' ' :: rest).length - rest.length)) = ' ' := by
  have hlength : (s ++ ' ' :: rest).length - rest.length = (s ++ [' ']).length := by
    simp only [List.length_append,List.length_cons,List.length_nil]
    omega
  have happ : s ++ ' ' :: rest = (s ++ [' ']) ++ rest := by simp
  rw [hlength,happ,List.take_left]
  simp [lastOr]

theorem attributesFrom_text (h : Separable quote attrs) (hclose : TagEnd close ending rest)
    {fuel : Nat} {before : Char} (hfuel : attrs.length ≤ fuel)
    (hbefore : attrs ≠ [] → precedesAttribute before = true) :
    attributesFrom fuel before (skipFiller (attributesText quote attrs ++ close)) =
      (attrs.map fun a => ⟨a.1,some (quote a.2)⟩,close) := by
  induction attrs generalizing fuel before with
  | nil =>
    simp only [attributesText,List.flatMap_nil,List.nil_append,hclose.skipFiller_eq,List.map_nil]
    cases fuel with
    | zero => rfl
    | succ fuel => simp [attributesFrom,hclose.attribute?_eq]
  | cons a attrs ih =>
    obtain ⟨ha,hattrs⟩ := List.forall_mem_cons.mp h
    obtain ⟨fuel,rfl⟩ : ∃ n, fuel = n + 1 := ⟨fuel - 1,by simp at hfuel; omega⟩
    have htext : attributesText quote (a::attrs) ++ close =
        ' ' :: a.1 ++ ('=' :: (quote a.2 ++ (attributesText quote attrs ++ close))) := by
      simp [attributesText]
    rw [htext,skipFiller_attribute ha.1,attributesFrom,
      attribute?_quoted (hbefore (List.cons_ne_nil _ _)) ha.1 ha.2]
    simp only
    rw [ih hattrs (by simpa using hfuel)]
    · rfl
    · intro hne
      obtain ⟨b,attrs',rfl⟩ := List.exists_cons_of_ne_nil hne
      have hb := (hattrs b List.mem_cons_self).1
      have hmore : attributesText quote (b::attrs') ++ close =
          ' ' :: b.1 ++ ('=' :: (quote b.2 ++ (attributesText quote attrs' ++ close))) := by
        simp [attributesText]
      rw [hmore,skipFiller_attribute hb]
      have hlast := lastOr_take_append before (a.1 ++ '=' :: quote a.2)
        (b.1 ++ '=' :: (quote b.2 ++ (attributesText quote attrs' ++ close)))
      simp only [List.append_assoc,List.cons_append] at hlast ⊢
      rw [hlast]
      rfl

theorem length_le_attributesText (quote : Text → Text) (attrs : Dictionary Text) :
    attrs.length ≤ (attributesText quote attrs).length := by
  induction attrs with
  | nil => simp
  | cons a attrs ih =>
    have hcons : attributesText quote (a::attrs) =
        (' ' :: a.1 ++ '=' :: quote a.2) ++ attributesText quote attrs := rfl
    rw [hcons,List.length_append]
    simp only [List.length_cons,List.length_append]
    omega

/-- A start tag is read as it is written. -/
theorem opening_text {name : Text} (hname : IsTagName name) (h : Separable quote attrs)
    (hclose : TagEnd close ending rest) :
    opening (name ++ (attributesText quote attrs ++ close)) =
      ⟨name,attrs.map fun a => ⟨a.1,some (quote a.2)⟩,close⟩ := by
  have hend : ∀ c ∈ (attributesText quote attrs ++ close).head?, (!endsName c) = false := by
    intro c hc
    cases attrs with
    | nil => cases hclose <;> cases hc <;> rfl
    | cons a attrs =>
      cases hc
      rfl
  have htake : (name ++ (attributesText quote attrs ++ close)).takeWhile (fun c => !endsName c) =
      name := (Text.takeWhile_append_stop (fun c hc => by simp [hname c hc]) hend).1
  unfold opening
  simp only [htake,List.drop_left]
  cases attrs with
  | nil =>
    rw [attributesFrom_text h hclose (Nat.zero_le _) (fun hne => absurd rfl hne)]
  | cons a attrs =>
    have ha := (h a List.mem_cons_self).1
    have htext : attributesText quote (a::attrs) ++ close =
        ' ' :: a.1 ++ ('=' :: (quote a.2 ++ (attributesText quote attrs ++ close))) := by
      simp [attributesText]
    have hfuel : (a::attrs).length ≤
        (skipFiller (attributesText quote (a::attrs) ++ close)).length + 1 := by
      have hrest := length_le_attributesText quote attrs
      rw [htext,skipFiller_attribute ha]
      simp only [List.length_cons,List.length_append]
      omega
    have hlast := lastOr_take_append (lastOr '<' name) []
      (a.1 ++ ('=' :: (quote a.2 ++ (attributesText quote attrs ++ close))))
    rw [List.nil_append] at hlast
    rw [attributesFrom_text h hclose hfuel]
    intro _
    rw [htext,skipFiller_attribute ha,List.cons_append,hlast]
    rfl

theorem TagEnd.ending_eq (h : TagEnd close ending rest) (name : Text) (as : List Written) :
    (Opening.mk name as close).ending = (ending,rest) := by
  cases h <;> rfl

theorem Written.text_marked {mark : Char} (hmark : mark = '"' ∨ mark = '\'') (k s : Text) :
    (Written.mk k (some (mark::(s ++ [mark])))).text = unescape s := by
  have hquoted : (decide (2 ≤ (mark::(s ++ [mark])).length) &&
      (decide ((mark::(s ++ [mark])).head? = some '\'') ||
        decide ((mark::(s ++ [mark])).head? = some '"')) &&
      decide ((mark::(s ++ [mark])).getLast? = (mark::(s ++ [mark])).head?)) = true := by
    have hlast : (mark::(s ++ [mark])).getLast? = some mark := by
      rw [← List.cons_append,List.getLast?_concat]
    rcases hmark with rfl | rfl <;> simp [hlast]
  have hinside : (mark::(s ++ [mark])).tail.dropLast = s := by simp
  simp only [Written.text,hquoted,if_true,hinside]

theorem Written.text_quoted {k q v : Text} (h : Quotes q v) : (Written.mk k (some q)).text = .ok v := by
  obtain ⟨mark,s,hmark,-,rfl,hs⟩ := h
  rw [Written.text_marked hmark,hs]

/-- The attributes of a start tag are those that were written, their names in lower case. -/
theorem attributes_text (h : Attributable quote attrs) (name rest : Text) :
    (Opening.mk name (attrs.map fun a => ⟨a.1,some (quote a.2)⟩) rest).attributes =
      .ok (Dictionary.ofEntries (attrs.map fun a => (Text.lower a.1,a.2))) := by
  have hentries : (attrs.map fun a => Written.mk a.1 (some (quote a.2))).mapM Written.entry =
      .ok (attrs.map fun a => (Text.lower a.1,a.2)) := by
    clear rest
    induction attrs with
    | nil => rfl
    | cons a attrs ih =>
      have hentry : (Written.mk a.1 (some (quote a.2))).entry = .ok (Text.lower a.1,a.2) := by
        rw [Written.entry,Written.text_quoted (h a (by simp)).2]
        rfl
      rw [List.map_cons,List.mapM_cons,hentry,ih fun b hb => h b (by simp [hb])]
      rfl
  simp only [Opening.attributes,hentries]
  rfl

/-- The markup is one start tag with a name and attributes, whatever follows. -/
def IsStartTag (tag name : Text) (attrs : Dictionary Text) : Prop :=
  ∃ body, tag = '<' :: body ∧ ∀ rest, Text.lower (opening (body ++ rest)).name = name ∧
    (opening (body ++ rest)).attributes = .ok attrs ∧ (opening (body ++ rest)).ending = (.closed,rest)

theorem isStartTag_text {name : Text} (hname : IsTagName name) (h : Attributable quote attrs) :
    IsStartTag ('<' :: name ++ (attributesText quote attrs ++ ['>'])) (Text.lower name)
      (Dictionary.ofEntries (attrs.map fun a => (Text.lower a.1,a.2))) := by
  refine ⟨name ++ (attributesText quote attrs ++ ['>']),rfl,fun rest => ?_⟩
  have happ : name ++ (attributesText quote attrs ++ ['>']) ++ rest =
      name ++ (attributesText quote attrs ++ '>' :: rest) := by simp
  rw [happ,opening_text hname h.separable (.closed rest)]
  exact ⟨rfl,attributes_text h name _,rfl⟩

end Longform.Html
