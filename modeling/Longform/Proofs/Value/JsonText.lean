import Mathlib.Data.List.Chain
import Longform.Value.Display
import Longform.Yaml.Scalar

/-! Texts in JSON. They are read as they were written, with one exception: two escapes of halves that make
a pair are one character, so halves that stood side by side in the text are joined. -/
namespace Longform
namespace Json

open Text

/-! The reader. -/

/-- The units that begin a pair. -/
def isHigh (unit : Nat) : Bool := 0xD800 ≤ unit && unit < 0xDC00
/-- The units that end a pair. -/
def isLow (unit : Nat) : Bool := 0xDC00 ≤ unit && unit < 0xE000

/-- The character of a unit by itself. -/
def ofUnit (unit : Nat) : Char :=
  if isHigh unit || isLow unit then ofHalf unit else Char.ofNat unit

def ofPair (high low : Nat) : Char :=
  Char.ofNat (0x10000 + (high - 0xD800) * 1024 + (low - 0xDC00))

/-- A unit as four figures. -/
def unit? (t : Text) : Option (Nat × Text) :=
  if (t.take 4).length = 4 && (t.take 4).all Yaml.isHex then some (Yaml.hexValue (t.take 4),t.drop 4)
  else none

/-- A unit behind a backslash and a `u`. -/
def escapedUnit? : Text → Option (Nat × Text)
  | '\\' :: 'u' :: r => unit? r
  | _ => none

/-- The character of an escaped unit, or of two when they are a pair; the first one begins the text. -/
def units? (t : Text) : Option (Char × Text) :=
  (unit? t).map fun (high,r) =>
    match if isHigh high then (escapedUnit? r).filter fun (low,_) => isLow low else none with
    | some (low,s) => (ofPair high low,s)
    | none => (ofUnit high,r)

/-- What letters and signs mean behind a backslash. -/
def shortEscapes : List (Char × Char) := [('"','"'),('\\','\\'),('/','/'),('b','\x08'),('f','\x0c'),
  ('n','\n'),('r','\r'),('t','\t')]

/-- The character at the beginning of what quotes enclose. -/
def char? : Text → Option (Char × Text)
  | [] => none
  | c :: r =>
    if c = '\\' then
      match r with
      | [] => none
      | d :: s => if d = 'u' then units? s else (shortEscapes.lookup d).map (·,s)
    else if c = '"' || c.toNat < 32 then none else some (c,r)

/-- The text up to the closing quote, and what follows it. -/
def textFrom : Nat → Text → Option (Text × Text)
  | 0, _ => none
  | fuel + 1, t =>
    if t.head? = some '"' then some ([],t.tail)
    else (char? t).bind fun (c,r) => (textFrom fuel r).map fun (cs,s) => (c :: cs,s)

/-! Figures. -/

theorem isHex_digitChar : ∀ d < 16, Yaml.isHex (Nat.digitChar d) = true := by decide

theorem digitValue_digitChar : ∀ d < 16, Decimal.digitValue (Nat.digitChar d) = d := by decide

theorem all_isHex_toDigits (n : Nat) : (Nat.toDigits 16 n).all Yaml.isHex = true := by
  induction n using Nat.strongRecOn with
  | ind n ih =>
    rw [Nat.toDigits_eq_if (by decide)]
    split
    · rename_i hn
      simp [isHex_digitChar n hn]
    · rw [List.all_append,ih (n / 16) (by omega)]
      simp [isHex_digitChar (n % 16) (by omega)]

theorem hexValue_append (t : Text) (c : Char) :
    Yaml.hexValue (t ++ [c]) = 16 * Yaml.hexValue t + Decimal.digitValue c := by
  simp [Yaml.hexValue,List.foldl_append]

theorem hexValue_toDigits (n : Nat) : Yaml.hexValue (Nat.toDigits 16 n) = n := by
  induction n using Nat.strongRecOn with
  | ind n ih =>
    rw [Nat.toDigits_eq_if (by decide)]
    split
    · rename_i hn
      simp [Yaml.hexValue,digitValue_digitChar n hn]
    · rw [hexValue_append,ih (n / 16) (by omega),digitValue_digitChar (n % 16) (by omega)]
      omega

theorem hexValue_zeros (k : Nat) (t : Text) :
    Yaml.hexValue (List.replicate k '0' ++ t) = Yaml.hexValue t := by
  induction k with
  | zero => rfl
  | succ k ih =>
    rw [List.replicate_succ,List.cons_append,← ih]
    rfl

/-- A unit is read as it was written. -/
theorem unit?_hex {n : Nat} (h : n < 65536) (rest : Text) : unit? (hex 4 n ++ rest) = some (n,rest) := by
  have hdigits : (Nat.toDigits 16 n).length ≤ 4 :=
    (Nat.length_toDigits_le_iff (by decide) (by decide)).mpr h
  have hlength : (hex 4 n).length = 4 := by
    simp only [hex,List.length_append,List.length_replicate]
    omega
  have htake : (hex 4 n ++ rest).take 4 = hex 4 n := List.take_left' hlength
  have hdrop : (hex 4 n ++ rest).drop 4 = rest := List.drop_left' hlength
  have hall : (hex 4 n).all Yaml.isHex = true := by
    have hzero : Yaml.isHex '0' = true := by decide
    simp only [hex,List.all_append,all_isHex_toDigits,List.all_replicate,hzero]
    simp
  have hvalue : Yaml.hexValue (hex 4 n) = n := (hexValue_zeros _ _).trans (hexValue_toDigits n)
  simp only [unit?,htake,hdrop,hlength,hall,hvalue,decide_true,Bool.and_self,if_true]

/-! Characters. -/

theorem half?_eq_some {c : Char} {u : Nat} (h : half? c = some u) :
    (isHigh u = true ∨ isLow u = true) ∧ ofHalf u = c := by
  unfold half? at h
  split at h
  · rename_i hrange
    obtain rfl := Option.some.inj h
    simp only [Bool.and_eq_true,decide_eq_true_eq] at hrange
    refine ⟨?_,?_⟩
    · simp only [isHigh,isLow,Bool.and_eq_true,decide_eq_true_eq]
      omega
    · have hnat : halfBase + (0xD800 + (c.toNat - halfBase) - 0xD800) = c.toNat := by omega
      rw [ofHalf,hnat,Char.ofNat_toNat]
  · cases h

/-- How a character is written. -/
inductive Written (c : Char) : Text → Prop
  | short {d : Char} (known : d ≠ 'u' ∧ shortEscapes.lookup d = some c) : Written c ['\\',d]
  | plain (visible : c ≠ '"' ∧ c ≠ '\\' ∧ 32 ≤ c.toNat) : Written c [c]
  | unit {u : Nat} (bound : u < 65536) (stands : ofUnit u = c)
      (half : isHigh u = true ∨ isLow u = true → half? c = some u) : Written c (Value.unitEscape u)
  | pair {high low : Nat} (first : isHigh high = true) (second : isLow low = true)
      (stands : ofPair high low = c) : Written c (Value.unitEscape high ++ Value.unitEscape low)

theorem lt_of_isHigh {u : Nat} (h : isHigh u = true) : u < 65536 := by
  simp only [isHigh,Bool.and_eq_true,decide_eq_true_eq] at h
  omega

theorem lt_of_isLow {u : Nat} (h : isLow u = true) : u < 65536 := by
  simp only [isLow,Bool.and_eq_true,decide_eq_true_eq] at h
  omega

theorem isHigh_or_isLow {u : Nat} : isHigh u = true ∨ isLow u = true ↔ 0xD800 ≤ u ∧ u < 0xE000 := by
  simp only [isHigh,isLow,Bool.and_eq_true,decide_eq_true_eq]
  omega

/-- Characters of the first plane are no halves. -/
theorem ofUnit_toNat {c : Char} : ofUnit c.toNat = c ∧ ¬(isHigh c.toNat = true ∨ isLow c.toNat = true) := by
  have hvalid : c.toNat.isValidChar := c.valid
  have hno : ¬(isHigh c.toNat = true ∨ isLow c.toNat = true) := by
    rw [isHigh_or_isLow]
    unfold Nat.isValidChar at hvalid
    omega
  refine ⟨?_,hno⟩
  rw [ofUnit,if_neg (by simpa using hno),Char.ofNat_toNat]

theorem written_jsonChar (c : Char) : Written c (Value.jsonChar c) := by
  by_cases hshort : c ∈ ['"','\\','\n','\r','\t','\x08','\x0c']
  · simp only [List.mem_cons,List.not_mem_nil,or_false] at hshort
    rcases hshort with rfl | rfl | rfl | rfl | rfl | rfl | rfl <;> exact .short (by decide)
  simp only [List.mem_cons,List.not_mem_nil,or_false,not_or] at hshort
  obtain ⟨hquote,hbackslash,hn,hr,ht,hb,hf⟩ := hshort
  rw [Value.jsonChar,if_neg hquote,if_neg hbackslash,if_neg hn,if_neg hr,if_neg ht,if_neg hb,if_neg hf]
  split
  · rename_i hvisible
    simp only [Bool.and_eq_true,decide_eq_true_eq] at hvisible
    exact .plain ⟨hquote,hbackslash,hvisible.1⟩
  split
  · exact .unit ‹_› ofUnit_toNat.1 fun h => absurd h ofUnit_toNat.2
  rename_i hastral
  split
  · rename_i u hu
    obtain ⟨hrange,hstands⟩ := half?_eq_some hu
    have hbound := isHigh_or_isLow.mp hrange
    refine .unit (by omega) ?_ fun _ => hu
    rw [ofUnit,if_pos (by simpa using hrange),hstands]
  · have hvalid : c.toNat.isValidChar := c.valid
    unfold Nat.isValidChar at hvalid
    have hhigh : isHigh (0xD800 + (c.toNat - 65536) / 1024) = true := by
      simp only [isHigh,Bool.and_eq_true,decide_eq_true_eq]
      omega
    have hlow : isLow (0xDC00 + (c.toNat - 65536) % 1024) = true := by
      simp only [isLow,Bool.and_eq_true,decide_eq_true_eq]
      omega
    refine .pair hhigh hlow ?_
    have hnat : 0x10000 + (0xD800 + (c.toNat - 65536) / 1024 - 0xD800) * 1024 +
        (0xDC00 + (c.toNat - 65536) % 1024 - 0xDC00) = c.toNat := by omega
    rw [ofPair,hnat,Char.ofNat_toNat]

theorem escapedUnit?_unitEscape {u : Nat} (h : u < 65536) (rest : Text) :
    escapedUnit? (Value.unitEscape u ++ rest) = some (u,rest) := unit?_hex h rest

theorem char?_unitEscape (u : Nat) (rest : Text) :
    char? (Value.unitEscape u ++ rest) = units? (hex 4 u ++ rest) := by
  simp [Value.unitEscape,char?]

/-- A character is read as it was written, unless it is a half and the other one follows. -/
theorem char?_of_written {c : Char} {t rest : Text} (h : Written c t)
    (hrest : (half? c).any isHigh = true → ∀ p, escapedUnit? rest = some p → isLow p.1 = false) :
    char? (t ++ rest) = some (c,rest) := by
  cases h with
  | @short d known =>
    simp only [char?,List.cons_append,List.nil_append,if_true,if_neg known.1,known.2,Option.map_some]
  | plain visible =>
    have hno : ¬(c = '"' || decide (c.toNat < 32)) = true := by
      simp only [Bool.or_eq_true,decide_eq_true_eq,not_or,Nat.not_lt]
      exact ⟨visible.1,visible.2.2⟩
    simp only [char?,List.cons_append,List.nil_append,if_neg visible.2.1,if_neg hno]
  | @unit u bound stands half =>
    rw [char?_unitEscape,units?,unit?_hex bound,← stands]
    have hnone : (if isHigh u then (escapedUnit? rest).filter fun p => isLow p.1 else none) = none := by
      split
      · rename_i hhigh
        refine Option.filter_eq_none_iff.mpr fun p hp => ?_
        have hlow := hrest (by rw [half (.inl hhigh)]; exact hhigh) p hp
        simp [hlow]
      · rfl
    simp only [Option.map_some,hnone]
  | @pair high low first second stands =>
    rw [List.append_assoc,char?_unitEscape,units?,unit?_hex (lt_of_isHigh first)]
    simp only [Option.map_some,first,if_true,escapedUnit?_unitEscape (lt_of_isLow second),
      Option.filter_some,second,stands]

/-- Only the second half of a pair is written as such. -/
theorem half?_of_escapedUnit? {c : Char} {t rest : Text} (h : Written c t) {p : Nat × Text}
    (hp : escapedUnit? (t ++ rest) = some p) (hlow : isLow p.1 = true) :
    (half? c).any isLow = true := by
  cases h with
  | @short d known =>
    unfold escapedUnit? at hp
    split at hp
    · rename_i heq
      simp only [List.cons_append,List.cons.injEq] at heq
      exact absurd heq.2.1 known.1
    · cases hp
  | plain visible =>
    unfold escapedUnit? at hp
    split at hp
    · rename_i heq
      exact absurd (List.cons.inj heq).1 visible.2.1
    · cases hp
  | @unit u bound stands half =>
    rw [escapedUnit?_unitEscape bound] at hp
    cases hp
    rw [half (.inr hlow)]
    exact hlow
  | @pair high low first second stands =>
    rw [List.append_assoc,escapedUnit?_unitEscape (lt_of_isHigh first)] at hp
    cases hp
    simp only [isHigh,isLow,Bool.and_eq_true,decide_eq_true_eq] at first hlow
    omega

/-! Texts. -/

/-- No half of a pair has the other one behind it. -/
def Unpaired (t : Text) : Prop :=
  t.IsChain fun c d => ¬((half? c).any isHigh = true ∧ (half? d).any isLow = true)

instance (t : Text) : Decidable (Unpaired t) := inferInstanceAs (Decidable (List.IsChain _ _))

/-- No character is written as the quote that ends a text. -/
theorem head?_of_written {c : Char} {t rest : Text} (h : Written c t) : (t ++ rest).head? ≠ some '"' := by
  cases h with
  | plain visible => simpa using visible.1
  | _ => simp [Value.unitEscape]

theorem ne_nil_of_written {c : Char} {t : Text} (h : Written c t) : t ≠ [] := by
  cases h <;> simp [Value.unitEscape]

theorem length_le_flatMap (t : Text) : t.length ≤ (t.flatMap Value.jsonChar).length := by
  induction t with
  | nil => exact Nat.zero_le _
  | cons c t ih =>
    have hc := List.length_pos_iff.mpr (ne_nil_of_written (written_jsonChar c))
    rw [List.flatMap_cons,List.length_append,List.length_cons]
    omega

theorem textFrom_flatMap {t : Text} (h : Unpaired t) (rest : Text) {fuel : Nat} (hfuel : t.length < fuel) :
    textFrom fuel (t.flatMap Value.jsonChar ++ '"' :: rest) = some (t,rest) := by
  induction t generalizing fuel with
  | nil =>
    obtain ⟨fuel,rfl⟩ : ∃ n, fuel = n + 1 := ⟨fuel - 1,by simp at hfuel; omega⟩
    rfl
  | cons c t ih =>
    obtain ⟨fuel,rfl⟩ : ∃ n, fuel = n + 1 := ⟨fuel - 1,by simp at hfuel; omega⟩
    have hread := ih h.tail (by simpa using hfuel)
    have hc := written_jsonChar c
    have hpair : (half? c).any isHigh = true →
        ∀ p, escapedUnit? (t.flatMap Value.jsonChar ++ '"' :: rest) = some p → isLow p.1 = false := by
      intro hhigh p hp
      cases t with
      | nil => cases hp
      | cons d t =>
        rw [List.flatMap_cons,List.append_assoc] at hp
        cases hlow : isLow p.1 with
        | false => rfl
        | true =>
          have hd := half?_of_escapedUnit? (written_jsonChar d) hp hlow
          exact absurd ⟨hhigh,hd⟩ (List.isChain_cons_cons.mp h).1
    rw [List.flatMap_cons,List.append_assoc,textFrom,if_neg (head?_of_written hc),
      char?_of_written hc hpair]
    simp only [Option.bind_some,hread,Option.map_some]

/-- The text behind an opening quote. -/
def text? (t : Text) : Option (Text × Text) := textFrom (t.length + 1) t

/-- A text is read as it was written, unless it holds both halves of a pair side by side. -/
theorem text?_flatMap {t : Text} (h : Unpaired t) (rest : Text) :
    text? (t.flatMap Value.jsonChar ++ '"' :: rest) = some (t,rest) := by
  have hlength := length_le_flatMap t
  refine textFrom_flatMap h rest ?_
  simp only [List.length_append]
  omega

end Json
end Longform
