import Longform.Markdown.Wikilink
import Longform.Proofs.Outcome
import Longform.Proofs.Text.Marks
import Longform.Proofs.Text.Percent
import Longform.Proofs.Text.Search
import Longform.Proofs.Token.Balance

/-! Wikilinks in a text. A text is parted at its wikilinks from left to right, in one way: a wikilink ends
at the first closing bracket behind its target and detail, so no two of them begin at one place. Each
becomes an image or a link, and the text between them stays as it is. Only a link to a search that has no bytes
keeps a text from being expanded. -/
namespace Longform
namespace Wikilink

open Text

/-- A wikilink that can be written down. -/
structure Spelled extends Wikilink where
  target_ne : target ≠ []
  target_inside : ∀ c ∈ target, c ≠ '|' ∧ c ≠ ']'
  detail_ne : ∀ d ∈ detail, d ≠ []
  detail_inside : ∀ d ∈ detail, ∀ c ∈ d, c ≠ ']'

/-- The bar and what stands behind it. -/
def detailText : Option Text → Text
  | none => []
  | some d => '|' :: d

/-- Everything behind the opening brackets. -/
def Spelled.inside (w : Spelled) : Text := w.target ++ (detailText w.detail ++ [']',']'])

def Spelled.text (w : Spelled) : Text :=
  (if w.bang then ['!','[','['] else ['[','[']) ++ w.inside

/-! Reading one wikilink. -/

section Reading

variable {w : Wikilink} {bang : Bool} {t r s : Text}

theorem readInside?_inside (v : Spelled) (s : Text) :
    readInside? v.bang (v.inside ++ s) = some (v.toWikilink,s) := by
  obtain ⟨⟨bang,target,detail⟩,hne,hinside,hdetail_ne,hdetail⟩ := v
  have htarget : ∀ c ∈ target, (decide (c ≠ '|') && decide (c ≠ ']')) = true := by simpa using hinside
  have hnonempty : target.isEmpty = false := List.isEmpty_eq_false_iff.mpr hne
  cases detail with
  | none =>
    obtain ⟨htake,hdrop⟩ := takeWhile_append_stop (r := ']' :: ']' :: s) htarget (by simp)
    simp only [Spelled.inside,detailText,List.nil_append,List.cons_append,List.append_assoc,readInside?,
      htake,hdrop,hnonempty]
    rfl
  | some d =>
    obtain ⟨htake,hdrop⟩ := takeWhile_append_stop (r := '|' :: (d ++ ']' :: ']' :: s)) htarget (by simp)
    have hd : ∀ c ∈ d, decide (c ≠ ']') = true := by simpa using hdetail d rfl
    obtain ⟨htake',hdrop'⟩ := takeWhile_append_stop (r := ']' :: ']' :: s) hd (by simp)
    have hnonempty' : d.isEmpty = false := List.isEmpty_eq_false_iff.mpr (hdetail_ne d rfl)
    simp only [Spelled.inside,detailText,List.nil_append,List.cons_append,List.append_assoc,readInside?,
      htake,hdrop,hnonempty,htake',hdrop',hnonempty']
    rfl

theorem exists_spelled (h : readInside? bang t = some (w,s)) :
    ∃ v : Spelled, v.toWikilink = w ∧ v.bang = bang ∧ t = v.inside ++ s := by
  obtain ⟨target,u,rfl,htake,hdrop,htarget,-⟩ :=
    exists_span (fun c => decide (c ≠ '|') && decide (c ≠ ']')) t
  have hinside : ∀ c ∈ target, c ≠ '|' ∧ c ≠ ']' := by simpa using htarget
  simp only [readInside?,htake,hdrop] at h
  split at h
  · cases h
  rename_i hne
  rw [List.isEmpty_iff] at hne
  split at h
  · cases h
    exact ⟨⟨⟨bang,target,none⟩,hne,hinside,by simp,by simp⟩,rfl,rfl,by simp [Spelled.inside,detailText]⟩
  · rename_i u
    obtain ⟨d,r,rfl,htake',hdrop',hd,-⟩ := exists_span (fun c => decide (c ≠ ']')) u
    simp only [htake',hdrop'] at h
    split at h
    · cases h
    rename_i hne'
    rw [List.isEmpty_iff] at hne'
    split at h
    · cases h
      exact ⟨⟨⟨bang,target,some d⟩,hne,hinside,by simpa using hne',by simpa using hd⟩,rfl,rfl,
        by simp [Spelled.inside,detailText]⟩
    · cases h
  · cases h

theorem read?_text (v : Spelled) (s : Text) : read? (v.text ++ s) = some (v.toWikilink,s) := by
  have hinside := readInside?_inside v s
  cases hbang : v.bang with
  | true =>
    rw [hbang] at hinside
    simpa [Spelled.text,hbang,read?] using hinside
  | false =>
    rw [hbang] at hinside
    simpa [Spelled.text,hbang,read?] using hinside

theorem exists_text_of_read? (h : read? t = some (w,s)) :
    ∃ v : Spelled, v.toWikilink = w ∧ t = v.text ++ s := by
  unfold read? at h
  split at h
  · obtain ⟨v,hw,hbang,rfl⟩ := exists_spelled h
    exact ⟨v,hw,by simp [Spelled.text,hbang]⟩
  · obtain ⟨v,hw,hbang,rfl⟩ := exists_spelled h
    exact ⟨v,hw,by simp [Spelled.text,hbang]⟩
  · cases h

theorem read?_eq_none (h : ¬BeginsMark Spelled.text t) : read? t = none := by
  rw [Option.eq_none_iff_forall_ne_some]
  rintro ⟨w,s⟩ hread
  obtain ⟨v,-,ht⟩ := exists_text_of_read? hread
  exact h ⟨v,s,ht⟩

theorem Spelled.text_ne_nil (v : Spelled) : v.text ≠ [] := by
  cases h : v.bang <;> simp [text,h]

/-- Two wikilinks with the same place to begin are the same. -/
theorem unambiguous_text : Unambiguous Spelled.text where
  ne_nil := Spelled.text_ne_nil
  eq_of_append := by
    intro v w r s h
    have hread := read?_text v r
    rw [h,read?_text w s] at hread
    obtain ⟨hw,-⟩ := Prod.mk.inj (Option.some.inj hread)
    cases v
    cases w
    simp_all

end Reading

/-! Expanding a text. -/

/-- An image with its address and its alternative text. -/
def imageToken (src alt : Text) : Token :=
  { Token.make "image" "img" 0 with
    attrs := [("src".toList,.text src),("alt".toList,.text alt)]
    content := alt
    children := some (if alt.isEmpty then [] else [Token.ofText alt]) }

/-- A link to an address around a text. -/
def linkTokens (address title : Text) : List Token :=
  [{ Token.make "link_open" "a" 1 with
      attrs := [("href".toList,.text address)], markup := "wikilink".toList },
    Token.ofText title,
    { Token.make "link_close" "a" (-1) with markup := "wikilink".toList }]

/-- The address of a destination: that of a file beside the page, or that of a search when there is a prefix
for searches. -/
inductive LeadsTo (destination : Text) (searchPrefix : Option Text) : Text → Prop
  | file : searchPrefix.getD [] = [] → LeadsTo destination searchPrefix (destination ++ ".html".toList)
  | search {p} : searchPrefix = some p → p ≠ [] →
      LeadsTo destination searchPrefix ("#&".toList ++ p ++ '=' :: Text.component destination)

/-- Whether a wikilink is to be shown as an image. -/
def Depicts (w : Wikilink) : Prop := w.bang = true ∧ Figure.isImageTarget w.target = true

/-- What a wikilink becomes: an image when it has an exclamation mark and its target looks like one, else
a link around its target. -/
inductive Shown (searchPrefix : Option Text) (w : Wikilink) : List Token → Prop
  | image : Depicts w → Shown searchPrefix w [imageToken w.target (w.detail.getD [])]
  | link {address} : ¬Depicts w → LeadsTo (w.detail.getD w.target) searchPrefix address →
      Shown searchPrefix w (linkTokens address w.target)

/-- A link to a search for something that has no bytes. -/
def Unwritable (searchPrefix : Option Text) (w : Wikilink) : Prop :=
  ¬Depicts w ∧ searchPrefix.getD [] ≠ [] ∧ ∃ c ∈ w.detail.getD w.target, Text.isHalf c = true

section Expanding

variable {searchPrefix : Option Text} {t s p before last : Text} {ms : List (Text × Spelled)} {n : Nat}
  {w : Wikilink} {ts : List Token}

theorem depicts_iff : w.isImage = true ↔ Depicts w := by
  rw [isImage,Bool.and_eq_true]
  rfl

theorem href_cases (searchPrefix : Option Text) (destination : Text) :
    (searchPrefix.getD [] ≠ [] ∧ (∃ c ∈ destination, Text.isHalf c = true) ∧
      href searchPrefix destination = .error .encoding) ∨
    (searchPrefix.getD [] ≠ [] → ∀ c ∈ destination, Text.isHalf c = false) ∧
      ∃ address, LeadsTo destination searchPrefix address ∧ href searchPrefix destination = .ok address := by
  cases searchPrefix with
  | none => exact .inr ⟨fun h => absurd rfl h,_,.file rfl,rfl⟩
  | some p =>
    by_cases hp : p = []
    · subst hp
      exact .inr ⟨fun h => absurd rfl h,_,.file rfl,rfl⟩
    have hsome : p.isEmpty = false := List.isEmpty_eq_false_iff.mpr hp
    simp only [href,hsome,Bool.false_eq_true,if_false,percentEncode_eq]
    cases hany : destination.any Text.isHalf with
    | true => exact .inl ⟨hp,List.any_eq_true.mp hany,rfl⟩
    | false => exact .inr ⟨fun _ => by simpa using hany,_,.search rfl hp,rfl⟩

theorem Spelled.tokens_cases (searchPrefix : Option Text) (v : Spelled) :
    (Unwritable searchPrefix v.toWikilink ∧ tokens searchPrefix v.toWikilink = .error .encoding) ∨
    ¬Unwritable searchPrefix v.toWikilink ∧
      ∃ ts, Shown searchPrefix v.toWikilink ts ∧ tokens searchPrefix v.toWikilink = .ok ts := by
  by_cases h : Depicts v.toWikilink
  · refine .inr ⟨fun hno => hno.1 h,_,.image h,?_⟩
    rw [tokens,if_pos (depicts_iff.mpr h)]
    cases hdetail : v.detail with
    | none => rfl
    | some d =>
      have hne : d.isEmpty = false := List.isEmpty_eq_false_iff.mpr (v.detail_ne d hdetail)
      simp only [imageToken,Option.getD_some,hne]
      rfl
  · rw [tokens,if_neg (mt depicts_iff.mp h)]
    rcases href_cases searchPrefix (v.detail.getD v.target) with
      ⟨hp,hhalf,hhref⟩ | ⟨hwhole,address,hleads,hhref⟩
    · exact .inl ⟨⟨h,hp,hhalf⟩,by rw [hhref]; rfl⟩
    · refine .inr ⟨?_,_,.link h hleads,by rw [hhref]; rfl⟩
      rintro ⟨-,hp,c,hc,hhalf⟩
      exact Bool.false_ne_true ((hwhole hp c hc).symm.trans hhalf)

theorem expandFrom_nil (n : Nat) (before : Text) :
    expandFrom searchPrefix n before [] = .ok (plain before) := by
  cases n with
  | zero => rw [expandFrom,List.append_nil]
  | succ n => rfl

theorem expandFrom_text (v : Spelled) : expandFrom searchPrefix (n + 1) before (v.text ++ s) =
    (tokens searchPrefix v.toWikilink).bind fun link =>
      (expandFrom searchPrefix n [] s).bind fun rest => .ok (plain before ++ link ++ rest) := by
  obtain ⟨c,r,hr⟩ := List.exists_cons_of_ne_nil v.text_ne_nil
  have hread := read?_text v s
  rw [hr,List.cons_append] at hread
  rw [hr,List.cons_append,expandFrom,hread]
  rfl

/-- A wikilink alone. -/
theorem expand_text (v : Spelled) :
    expand searchPrefix v.text = tokens searchPrefix v.toWikilink := by
  have hlength : v.text.length = v.text.length - 1 + 1 := by
    have hpos := List.length_pos_iff.mpr v.text_ne_nil
    omega
  have hexpand : expandFrom searchPrefix (v.text.length - 1 + 1) [] (v.text ++ []) = _ :=
    expandFrom_text v
  rw [← hlength,List.append_nil,expandFrom_nil] at hexpand
  rw [expand,hexpand]
  cases tokens searchPrefix v.toWikilink with
  | error e => rfl
  | ok link => exact congrArg Except.ok (List.append_nil link)

/-! The tokens match. -/

theorem Shown.neutral (h : Shown searchPrefix w ts) : Token.Neutral ts := by
  cases h with
  | image => exact Token.neutral_singleton rfl
  | link =>
    have htitle : Token.Neutral [Token.ofText w.target] := Token.neutral_singleton rfl
    exact htitle.enclose rfl rfl rfl

theorem Shown.wellFormed_children (h : Shown searchPrefix w ts) :
    ∀ k ∈ ts, Token.wellFormed (k.children.getD []) = true := by
  cases h with
  | image =>
    rw [List.forall_mem_singleton]
    cases hempty : (w.detail.getD []).isEmpty <;> simp only [imageToken,hempty] <;> rfl
  | link =>
    simp only [linkTokens,List.forall_mem_cons]
    exact ⟨rfl,rfl,rfl,List.forall_mem_nil _⟩

/-- Well-formed tokens that match among themselves. -/
def IsWhole (ts : List Token) : Prop :=
  Token.Neutral ts ∧ ∀ k ∈ ts, Token.wellFormed (k.children.getD []) = true

theorem IsWhole.append {us : List Token} (h : IsWhole ts) (h' : IsWhole us) : IsWhole (ts ++ us) :=
  ⟨h.1.append h'.1,List.forall_mem_append.mpr ⟨h.2,h'.2⟩⟩

end Expanding
end Wikilink
end Longform
