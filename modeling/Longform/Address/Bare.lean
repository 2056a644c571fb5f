import Longform.Text.Case
import Longform.Text.Letter
import Longform.Text.Pattern

/-! Addresses and mail boxes that stand bare in running text. An address with a scheme is found by
the scheme, any other by a well-known last label of its host. -/
namespace Longform.Bare
open Text Text.Pattern

/-- A link found in a text: its scheme, where it begins and ends, and its address. -/
structure Link where
  scheme : Text
  start : Nat
  stop : Nat
  text : Text
  address : Text
deriving DecidableEq, Repr

/-! Classes of characters. -/

/-- White space and controls. -/
def isSpace (c : Char) : Bool := isSeparator c || isControl c

def isSpaceOrPunctuation (c : Char) : Bool := isSpace c || (c.toNat < 0x10000 && isPunctuation c)

/-- Characters that no address holds. -/
def isBarrier (c : Char) : Bool := c = '>' || c = '<' || c = '｜'

/-- Characters of a host label. -/
def isLabelChar (c : Char) : Bool :=
  c.toNat < 0x10000 && !isBarrier c && !isSpaceOrPunctuation c

def isFigure (c : Char) : Bool := (decimalValue? c).isSome

def isAsciiWord (c : Char) : Bool := (foldChar c).isAlphanum

/-! Patterns of the parts of an address. -/

/-- A text in any case. -/
def folded (s : String) : Pattern :=
  s.toList.foldr (fun c p => .seq (.char fun d => foldChar d = c) p) .empty

/-- A host label in ASCII form. -/
def encodedLabel : Pattern :=
  .seq (folded "xn--") (.span 1 (some 59) fun c => isAsciiWord c || c = '-')

def label : Pattern := any [encodedLabel, .char isLabelChar,
  all [.char isLabelChar, .span 0 (some 61) (fun c => c = '-' || isLabelChar c), .char isLabelChar]]

def lastLabel : Pattern := .alt encodedLabel (.span 1 (some 63) isLabelChar)

def labelDot : Pattern := .seq label (is '.')

def host : Pattern := .seq (star labelDot) label

/-- Two-letter country labels: the first letter with the letters that may follow it. -/
def countries : List (Char × String) := [
  ('a', "cdefgilmnoqrstuwxz"), ('b', "abdefghijmnorstvwyz"), ('c', "acdfghiklmnoruvwxyz"),
  ('d', "ejkmoz"), ('e', "cegrstu"), ('f', "ijkmor"), ('g', "abdefghilmnpqrstuwy"),
  ('h', "kmnrtu"), ('i', "delmnoqrst"), ('j', "emop"), ('k', "eghimnprwyz"), ('l', "abcikrstuvy"),
  ('m', "acdeghklmnopqrstuvwxyz"), ('n', "acefgilopruz"), ('o', "m"), ('p', "aefghklmnrstwy"),
  ('q', "a"), ('r', "eosuw"), ('s', "abcdeghijklmnortuvxyz"), ('t', "cdfghjklmnortvwz"),
  ('u', "agksyz"), ('v', "aceginu"), ('w', "fs"), ('y', "et"), ('z', "amw")]

def country : Pattern := any (countries.map fun (a, bs) =>
  .seq (.char fun c => foldChar c = a) (.char fun c => foldChar c ∈ bs.toList))

/-- The well-known last labels of hosts. -/
def domain : Pattern := any (
  (["biz", "com", "edu", "gov", "net", "org", "pro", "web", "xxx", "aero", "asia", "coop", "info",
    "museum", "name", "shop"].map folded) ++
  [.seq (one "рР") (one "фФ"), country, encodedLabel])

def knownHost : Pattern := .seq (plus labelDot) domain

def byteNumber : Pattern := any [
  all [str "25", .char fun c => '0' ≤ c && c ≤ '5'],
  all [is '2', .char (fun c => '0' ≤ c && c ≤ '4'), .char Char.isDigit],
  all [opt (one "01"), .char Char.isDigit, opt (.char Char.isDigit)]]

def fourNumbers : Pattern := .seq (times 3 3 (.seq byteNumber (is '.'))) byteNumber

/-- A user in front of a host. -/
def user : Pattern :=
  opt (.seq (.span 1 none fun c => !isSpace c && c ∉ "@/[]()".toList) (is '@'))

def figures (n : Nat) : Pattern := .span n (some n) isFigure

def portNumber : Pattern := opt (.seq (is ':') (any [
  .seq (is '6') (any [
    .seq (one "01234") (figures 3),
    .seq (is '5') (any [
      .seq (one "01234") (figures 2),
      .seq (is '5') (any [.seq (one "012") (figures 1), .seq (is '3') (one "012345")])])]),
  .seq (opt (one "12345")) (.span 1 (some 4) isFigure)]))

/-- A host ends before the end, white space or punctuation, but not before what would go on. -/
def hostEnd : Pattern := .seq
  (.look (any [.ending, .char isBarrier, .char isSpaceOrPunctuation]))
  (.notLook (any [is '-', is '_', .seq (is ':') (.char isFigure), str ".-",
    .seq (is '.') (.notLook (.alt .ending (.char isSpaceOrPunctuation)))]))

/-- Text in brackets within a path. -/
def bracketed (a b : Char) (min : Nat) : Pattern :=
  all [is a, .span min none (fun c => !isSpace c && c ≠ b), is b]

/-- A mark that has to be followed by something else than white space, the end or `stop`. -/
def inside (p : Pattern) (stop : List Char) : Pattern :=
  .seq p (.notLook (any [.char isSpace, .char (· ∈ stop), .ending]))

def pathPiece : Pattern := any [
  .char fun c => !isSpace c && !isBarrier c && c ∉ "()[]\x7b\x7d.,\"'?!-;".toList,
  bracketed '[' ']' 0, bracketed '(' ')' 0, bracketed '\x7b' '\x7d' 0,
  bracketed '"' '"' 1, bracketed '\'' '\'' 1,
  .seq (is '\'') (.look (.char fun c => isLabelChar c || c = '-')),
  .seq (.span 2 none (· = '.')) (.char fun c => isAsciiWord c || c ∈ "%/&".toList),
  inside (is '.') ['.'], .span 1 none (· = '-'), inside (is ',') [], inside (is ';') [],
  inside (.span 1 none (· = '!')) ['!'], inside (is '?') ['?']]

/-- A path, query or fragment. -/
def path : Pattern := opt (.alt (.seq (one "/?#") (plus pathPiece)) (is '/'))

def isMailChar (c : Char) : Bool := isAsciiWord c || c ∈ "-;:&=+$,._".toList

def mailName : Pattern :=
  .seq (.char isMailChar) (.span 0 none fun c => isMailChar c || c = '"')

/-! What follows a scheme. -/

def afterHttp : Pattern := all [str "//", user, host, portNumber, hostEnd, path]

def afterSlashes : Pattern :=
  all [user, .alt (folded "localhost") (.seq (plus labelDot) lastLabel), portNumber, hostEnd, path]

def afterMailto : Pattern := all [mailName, is '@', host, hostEnd]

/-- Links without a scheme, and mail boxes. -/
def plainLink : Pattern :=
  all [.notLook (one "$+<=>^\x60|｜"), knownHost, portNumber, hostEnd, path]

def plainMail : Pattern := all [mailName, is '@', .alt fourNumbers knownHost, hostEnd]

/-- A quick test for the end of a known host. -/
def hostHint : Pattern := any [folded "localhost", folded "www.",
  all [is '.', .span 1 (some 3) isFigure, is '.'],
  all [is '.', domain, any [.char isSpaceOrPunctuation, is '>', .ending]]]

def schemes : List String := ["http:", "//", "mailto:", "https:", "ftp:"]

def scheme : Pattern := any (schemes.map folded)

/-! Characters that may stand in front of a link. -/

def beforeScheme (c : Char) : Bool := c ≠ '_' && (isBarrier c || isSpaceOrPunctuation c)

def beforeLink (c : Char) : Bool :=
  c ∉ ".:/-_@".toList && (c ∈ "$+<=>^\x60|｜".toList || isSpaceOrPunctuation c)

def beforeMail (c : Char) : Bool := isBarrier c || c = '"' || c = '(' || isSpace c

/-- The first match of a pattern at the beginning of a text or behind a fitting character; gives its
beginning and end. -/
def findBehind? (before : Char → Bool) (p : Pattern) : Nat → Bool → Text → Option (Nat × Nat)
  | n, atStart, t =>
    match if atStart then p.length? t else none with
    | some k => some (n, n + k)
    | none => match t with
      | [] => none
      | c :: r => match if before c then p.length? r else none with
        | some k => some (n + 1, n + 1 + k)
        | none => findBehind? before p (n + 1) false r

/-- How much of a link follows a scheme that ends at `n`. -/
def tailLength (scheme : Text) (t : Text) (n : Nat) : Nat :=
  let tail := t.drop n
  if scheme = "mailto:".toList then (afterMailto.length? tail).getD 0
  else if scheme = "//".toList then
    match afterSlashes.length? tail with
    | none => 0
    | some k => if 3 ≤ n && (t[n - 3]? = some ':' || t[n - 3]? = some '/') then 0 else k
  else (afterHttp.length? tail).getD 0

def foldedText (t : Text) : Text := t.map foldChar

/-- A place in a text: scheme, beginning and end of a link. -/
abbrev Place := Text × Nat × Nat

/-- The first scheme, from position `n` on, that a link follows. -/
def schemeFrom? (t : Text) : Nat → Nat → Option Place
  | 0, _ => none
  | fuel + 1, n =>
    match findBehind? beforeScheme scheme n (n = 0) (t.drop n) with
    | none => none
    | some (start, stop) =>
      let name := foldedText ((t.drop start).take (stop - start))
      match tailLength name t stop with
      | 0 => schemeFrom? t fuel stop
      | k => some (name, start, stop + k)

/-- A link without a scheme, if it begins before all that was found. -/
def orLink (t : Text) (found : Option Place) : Option Place :=
  match hostHint.find? t with
  | none => found
  | some (hint, _) =>
    if found.any (·.2.1 ≤ hint) then found
    else match findBehind? beforeLink plainLink 0 true t with
      | none => found
      | some (start, stop) =>
        if found.any (·.2.1 ≤ start) then found else some ([], start, stop)

/-- A mail box, if it begins before all that was found, or at the same place and is longer. -/
def orMail (t : Text) (found : Option Place) : Option Place :=
  if '@' ∉ t then found
  else match findBehind? beforeMail plainMail 0 true t with
    | none => found
    | some (start, stop) =>
      match found with
      | some (_, s, e) =>
        if start < s || (start = s && e < stop) then some ("mailto:".toList, start, stop) else found
      | none => some ("mailto:".toList, start, stop)

/-- The first link of a text. -/
def first? (t : Text) : Option Place := orMail t (orLink t (schemeFrom? t (t.length + 1) 0))

/-- The link at a place of a text that begins `shift` characters into the whole. -/
def link (t : Text) (shift : Nat) (p : Place) : Link :=
  let (scheme, start, stop) := p
  let raw := (t.drop start).take (stop - start)
  let address :=
    if scheme.isEmpty then "http://".toList ++ raw
    else if scheme = "mailto:".toList && !Text.startsWith scheme (foldedText raw) then
      scheme ++ raw
    else raw
  ⟨scheme, start + shift, stop + shift, raw, address⟩

/-- All links, each sought in the text that the one before it has left. -/
def linksFrom : Nat → Nat → Text → List Link
  | 0, _, _ => []
  | fuel + 1, shift, t => match first? t with
    | none => []
    | some (scheme, start, stop) =>
      link t shift (scheme, start, stop) :: linksFrom fuel (shift + stop) (t.drop stop)

def links (t : Text) : List Link := linksFrom (t.length + 1) 0 t

/-- The link with a scheme that a text begins with, or begins with behind one character. -/
def linkAtStart? (t : Text) : Option Link :=
  let sought (n : Nat) : Option Link := match scheme.length? (t.drop n) with
    | none => none
    | some k =>
      let name := foldedText ((t.drop n).take k)
      match tailLength name t (n + k) with
      | 0 => none
      | m => some (link t 0 (name, n, n + k + m))
  if scheme.isPrefixOf t then sought 0
  else if t.head?.any beforeScheme then sought 1 else none

/-- Whether a text may hold a link at all. -/
def mayHoldLink (t : Text) : Bool :=
  '@' ∈ t || hostHint.occursIn t || (findBehind? beforeScheme scheme 0 true t).isSome

end Longform.Bare
