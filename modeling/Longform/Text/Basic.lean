/-! Texts as lists of characters: lines, trimming, joining and plain search. -/
namespace Longform

/-- A text; lengths and positions count code points. -/
abbrev Text := List Char

namespace Text

/-- Blank characters: white space of every script, with the four separator controls. -/
def isBlank (c : Char) : Bool :=
  let n := c.toNat
  (9 ≤ n && n ≤ 13) || (28 ≤ n && n ≤ 32) || n == 0x85 || n == 0xA0 || n == 0x1680 ||
    (0x2000 ≤ n && n ≤ 0x200A) || n == 0x2028 || n == 0x2029 || n == 0x202F || n == 0x205F ||
    n == 0x3000

/-- A text of blanks only. -/
def allBlank (t : Text) : Bool := t.all isBlank

/-- Drops the longest suffix of characters that satisfy `p`. -/
def dropEndWhile (p : Char → Bool) : Text → Text
  | [] => []
  | c :: r => match dropEndWhile p r with
    | [] => if p c then [] else [c]
    | d :: s => c :: d :: s

def trimStart (t : Text) : Text := t.dropWhile isBlank
def trimEnd (t : Text) : Text := dropEndWhile isBlank t

/-- Drops the blanks at both ends. -/
def trim (t : Text) : Text := trimEnd (trimStart t)

/-- The pieces of a text between the occurrences of a separator, one more than there are separators. -/
def splitAt (sep : Char) : Text → List Text
  | [] => [[]]
  | c :: r =>
    if c = sep then [] :: splitAt sep r
    else match splitAt sep r with
      | [] => [[c]]
      | p :: ps => (c :: p) :: ps

/-- The pieces joined with a separator between neighbours. -/
def join (sep : Text) : List Text → Text
  | [] => []
  | [p] => p
  | p :: q :: ps => p ++ sep ++ join sep (q :: ps)

def lines (t : Text) : List Text := splitAt '\n' t
def joinLines (ls : List Text) : Text := join ['\n'] ls

/-- What is before and after the first occurrence of a character, if there is one. -/
def cutAt (sep : Char) : Text → Option (Text × Text)
  | [] => none
  | c :: r => if c = sep then some ([], r) else (cutAt sep r).map fun (a, b) => (c :: a, b)

/-- Whether `p` is where the text begins. -/
def startsWith (p t : Text) : Bool := p.isPrefixOf t

/-- Whether a text is one of several. -/
def isOneOf (t : Text) (ts : List Text) : Bool := ts.any fun u => u = t

theorem isOneOf_iff {t : Text} {ts : List Text} : isOneOf t ts = true ↔ t ∈ ts := by
  simp [isOneOf]

/-- What follows `p` in a text that begins with it. -/
def after? : Text → Text → Option Text
  | [], t => some t
  | _ :: _, [] => none
  | p :: ps, c :: r => if p = c then after? ps r else none

/-- Whether `p` occurs in the text. -/
def contains (p : Text) : Text → Bool
  | [] => p.isEmpty
  | c :: r => startsWith p (c :: r) || contains p r

/-- The text before an optional last line feed, if that is the only one. -/
def oneLine? : Text → Option Text
  | [] => some []
  | ['\n'] => some []
  | c :: r => if c = '\n' then none else (oneLine? r).map (c :: ·)

/-- Decimal digits of a number. -/
def ofNat (n : Nat) : Text := Nat.toDigits 10 n
def ofInt : Int → Text
  | .ofNat n => ofNat n
  | .negSucc n => '-' :: ofNat (n + 1)

end Text
end Longform
