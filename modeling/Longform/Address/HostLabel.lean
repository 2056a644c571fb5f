import Longform.Text.Basic

/-! Host labels beyond ASCII. A label is written with its ASCII characters first and the others as a
series of differences in base 36, whose digit thresholds adapt to the sizes met so far. -/
namespace Longform.HostLabel

/-- Digits 0–25 are letters, 26–35 are figures. -/
def digit (d : Nat) : Char := if d < 26 then Char.ofNat (97 + d) else Char.ofNat (22 + d)

def digitValue? (c : Char) : Option Nat :=
  let u := c.toUpper
  if u.isUpper then some (u.toNat - 65) else if c.isDigit then some (c.toNat - 22) else none

/-- The threshold of the digit at a place. -/
def threshold (place bias : Nat) : Nat :=
  if 36 * (place + 1) ≤ bias then 1
  else if 26 ≤ 36 * (place + 1) - bias then 26
  else 36 * (place + 1) - bias

theorem threshold_pos (place bias : Nat) : 1 ≤ threshold place bias := by
  unfold threshold; split
  · omega
  · split <;> omega

theorem threshold_le (place bias : Nat) : threshold place bias ≤ 26 := by
  unfold threshold; split
  · omega
  · split <;> omega

/-- Divides by 35 until at most 455 is left; gives that and 36 for every division. -/
def shrink (delta divisions : Nat) : Nat × Nat :=
  if 455 < delta then shrink (delta / 35) (divisions + 36) else (delta, divisions)
termination_by delta

/-- The bias after a difference. -/
def adapt (delta : Nat) (first : Bool) (count : Nat) : Nat :=
  let d := if first then delta / 700 else delta / 2
  let (rest, divisions) := shrink (d + d / count) 0
  divisions + 36 * rest / (rest + 38)

/-- The digits of a difference, from a place on. -/
def differenceDigits (bias place n : Nat) : Text :=
  let t := threshold place bias
  if n < t then [digit n]
  else digit (t + (n - t) % (36 - t)) :: differenceDigits bias (place + 1) ((n - t) / (36 - t))
termination_by n
decreasing_by
  have h₁ := threshold_pos place bias
  have h₂ := threshold_le place bias
  exact Nat.lt_of_le_of_lt (Nat.div_le_self _ _) (by omega)

structure Encoder where
  out : Text
  delta : Nat
  bias : Nat
  done : Nat

/-- One character of the label, in the round for code point `m`. -/
def encodeChar (basic m : Nat) (s : Encoder) (c : Char) : Encoder :=
  if c.toNat < m then { s with delta := s.delta + 1 }
  else if c.toNat = m then
    ⟨s.out ++ differenceDigits s.bias 0 s.delta, 0, adapt s.delta (s.done = basic) (s.done + 1),
      s.done + 1⟩
  else s

/-- The code points above ASCII, each once, in increasing order. -/
def insertSorted (n : Nat) : List Nat → List Nat
  | [] => [n]
  | m :: r => if n < m then n :: m :: r else if n = m then m :: r else m :: insertSorted n r

def highPoints (t : Text) : List Nat :=
  ((t.filter (128 ≤ ·.toNat)).map Char.toNat).foldr insertSorted []

def encodeRounds (t : Text) (basic : Nat) : List Nat → Nat → Encoder → Encoder
  | [], _, s => s
  | m :: r, next, s =>
    let s := t.foldl (encodeChar basic m) { s with delta := s.delta + (m - next) * (s.done + 1) }
    encodeRounds t basic r (m + 1) { s with delta := s.delta + 1 }

/-- A label in ASCII, without a mark in front. -/
def encode (t : Text) : Text :=
  let basic := t.filter (·.toNat < 128)
  let s := encodeRounds t basic.length (highPoints t) 128 ⟨[], 0, 72, basic.length⟩
  if basic.isEmpty then s.out else basic ++ '-' :: s.out

/-- Reads a difference: its value and what follows. -/
def readDifference (bias : Nat) : Nat → Nat → Nat → Text → Option (Nat × Text)
  | _, _, _, [] => none
  | place, weight, sum, c :: r =>
    match digitValue? c with
    | none => none
    | some d =>
      let t := threshold place bias
      if d < t then some (sum + d * weight, r)
      else readDifference bias (place + 1) (weight * (36 - t)) (sum + d * weight) r

/-- Inserts one character for every difference; `place` is one after the last insertion. -/
def decodeFrom : Nat → Nat → Nat → Nat → Bool → Text → Text → Option Text
  | 0, _, _, _, _, base, _ => some base
  | _, _, _, _, _, base, [] => some base
  | fuel + 1, point, place, bias, first, base, t =>
    match readDifference bias 0 1 0 t with
    | none => none
    | some (delta, r) =>
      let pos := place + delta
      let count := base.length + 1
      let point := point + pos / count
      let pos := pos % count
      if 0x10FFFF < point || (0xD800 ≤ point && point < 0xE000) then none
      else decodeFrom fuel point (pos + 1) (adapt delta first count) false
        (base.take pos ++ Char.ofNat point :: base.drop pos) r

/-- What is before and after the last hyphen; all of it is after when there is none. -/
def cutAtLastHyphen (t : Text) : Text × Text :=
  match Text.cutAt '-' t.reverse with
  | some (a, b) => (b.reverse, a.reverse)
  | none => ([], t)

/-- The label that an ASCII form stands for. -/
def decode? (t : Text) : Option Text :=
  if t.any (128 ≤ ·.toNat) then none
  else
    let (base, digits) := cutAtLastHyphen t
    decodeFrom digits.length 128 0 72 true base digits

/-- Hosts are cut into labels at full stops of any width. -/
def isStop (c : Char) : Bool := c = '.' || c = '\u3002' || c = '\uFF0E' || c = '\uFF61'

/-- The labels of a host. -/
def labels (t : Text) : List Text := Text.splitAt '.' (t.map fun c => if isStop c then '.' else c)

def toAsciiLabel (t : Text) : Text :=
  if t.any (127 ≤ ·.toNat) then "xn--".toList ++ encode t else t

def toUnicodeLabel? (t : Text) : Option Text :=
  match Text.after? "xn--".toList t with
  | some r => decode? (r.map Char.toLower)
  | none => some t

/-- What is up to the first at sign, and the host between it and the next. -/
def splitUser (t : Text) : Text × Text :=
  match Text.splitAt '@' t with
  | user :: host :: _ => (user ++ ['@'], host)
  | _ => ([], t)

/-- A host with every label in ASCII. -/
def toAscii (t : Text) : Text :=
  let (user, host) := splitUser t
  user ++ Text.join ['.'] ((labels host).map toAsciiLabel)

/-- A host with every label as it is read; none when a label is malformed. -/
def toUnicode? (t : Text) : Option Text :=
  let (user, host) := splitUser t
  ((labels host).mapM toUnicodeLabel?).map fun ls => user ++ Text.join ['.'] ls

end Longform.HostLabel
