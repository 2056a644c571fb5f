import Longform.Address.HostLabel
import Longform.Text.Case
import Longform.Text.Percent

/-! Addresses of links: their parts, and how they are written into a document and shown to readers. -/
namespace Longform

structure Address where
  protocol : Text
  slashes : Bool
  user : Text
  host : Text
  portNumber : Text
  path : Text
  query : Text
  fragment : Text
deriving DecidableEq, Repr

namespace Address

/-- Schemes that never have a host. -/
def hasNoHost (protocol : Text) : Bool := protocol = "javascript:".toList

/-- Schemes whose host stands behind two slashes. -/
def needsSlashes (protocol : Text) : Bool :=
  Text.isOneOf protocol (["http:", "https:", "ftp:", "gopher:", "file:"].map String.toList)

def isSchemeChar (c : Char) : Bool :=
  (Text.foldChar c).isAlphanum || c = '.' || c = '+' || c = '-'

/-- The scheme with its colon, and what follows. -/
def cutScheme (t : Text) : Text × Text :=
  match t.dropWhile isSchemeChar with
  | ':' :: r =>
    let name := t.takeWhile isSchemeChar
    if name.isEmpty then ([], t) else (name ++ [':'], r)
  | _ => ([], t)

def endsHost (c : Char) : Bool := c = '/' || c = '?' || c = '#'

/-- Characters that cannot be part of a host. -/
def isNoHostChar (c : Char) : Bool :=
  c ∈ ['%', '/', '?', ';', '#', '\'', '\x7b', '}', '|', '\\', '^', '\x60', '<', '>', '"', ' ', '\r',
    '\n', '\t']

/-- What is before and after the last at sign. -/
def cutAtLast (t : Text) : Option (Text × Text) :=
  (Text.cutAt '@' t.reverse).map fun (a, b) => (b.reverse, a.reverse)

/-- The user part in front of the last at sign of the host, and what follows. -/
def cutUser (t : Text) : Text × Text :=
  let reach := t.takeWhile fun c => !endsHost c
  match cutAtLast reach with
  | some (user, _) => (user, t.drop (user.length + 1))
  | none => ([], t)

/-- The host with the number behind it, and what follows. A colon at the end of the host is left to what
follows; when there is no host at all, the last colon of the text ends one. -/
def cutHost (t : Text) : Text × Text :=
  let host := t.takeWhile fun c => !isNoHostChar c
  let n := if host.isEmpty then
      if t.getLast? = some ':' then t.length - 1 else 0
    else if host.getLast? = some ':' then host.length - 1 else host.length
  (t.take n, t.drop n)

/-- The host and the number behind it: a colon and figures at the end. -/
def cutPortNumber (t : Text) : Text × Text :=
  let figures := (t.reverse.takeWhile Char.isDigit).length
  match t.reverse.drop figures with
  | ':' :: r => (r.reverse, t.drop (t.length - figures))
  | _ => (t, [])

def isLabelChar (c : Char) : Bool := c.isAlphanum || c = '+' || c = '_' || c = '-'

/-- Labels have at most 63 characters of their class; those beyond ASCII are let pass. -/
def isLabel (t : Text) : Bool :=
  t.length ≤ 63 && t.all fun c => isLabelChar c || 127 < c.toNat

/-- The longest part of a label that is fit to end a host, and what is left of the label. -/
def cutLabel (t : Text) : Text × Text :=
  let good := (t.takeWhile isLabelChar).take 63
  (good, t.drop good.length)

/-- The labels up to the first that is unfit, and what of the host is given back to the path. -/
def checkLabels : List Text → List Text × Option Text
  | [] => ([], none)
  | l :: ls =>
    if isLabel l then
      let (good, back) := checkLabels ls
      (l :: good, back)
    else
      let (good, bad) := cutLabel l
      ([good], some (Text.join ['.'] (bad :: ls)))

/-- The host proper, and what it gives back. Hosts in brackets are taken as they are. -/
def checkHost (t : Text) : Text × Text :=
  if t.head? = some '[' && t.getLast? = some ']' then
    (if 255 < t.length then [] else t.drop 1 |>.dropLast, [])
  else
    let (good, back) := checkLabels (Text.splitAt '.' t)
    let host := Text.join ['.'] good
    (if 255 < host.length then [] else host, back.getD [])

/-- Path, query and fragment. -/
def cutPath (t : Text) : Text × Text × Text :=
  let front := t.takeWhile (· ≠ '#')
  (front.takeWhile (· ≠ '?'), front.dropWhile (· ≠ '?'), t.dropWhile (· ≠ '#'))

/-- Reads an address; two slashes in front always announce a host. -/
def read (t : Text) : Address :=
  let (protocol, rest) := cutScheme (Text.trim t)
  let slashes := Text.startsWith "//".toList rest
  let drops := slashes && !hasNoHost protocol
  let rest := if drops then rest.drop 2 else rest
  if !hasNoHost protocol && (slashes || (!protocol.isEmpty && !needsSlashes protocol)) then
    let (user, rest) := cutUser rest
    let (whole, rest) := cutHost rest
    let (host, number) := cutPortNumber whole
    let (host, back) := checkHost host
    let (path, query, fragment) := cutPath (back ++ rest)
    ⟨protocol, drops, user, host, number, path, query, fragment⟩
  else
    let (path, query, fragment) := cutPath rest
    ⟨protocol, drops, [], [], [], path, query, fragment⟩

def text (a : Address) : Text :=
  a.protocol ++ (if a.slashes then "//".toList else []) ++
    (if a.user.isEmpty then [] else a.user ++ ['@']) ++
    (if ':' ∈ a.host then '[' :: a.host ++ [']'] else a.host) ++
    (if a.portNumber.isEmpty then [] else ':' :: a.portNumber) ++ a.path ++ a.query ++ a.fragment

def isHex (c : Char) : Bool := c.isDigit || ('a' ≤ c.toLower && c.toLower ≤ 'f')

/-- Characters of an address that are written as they are. -/
def isPlain (c : Char) : Bool :=
  c.isAlphanum || c ∈ [';', '/', '?', ':', '@', '&', '=', '+', '$', ',', '-', '_', '.', '!', '~', '*',
    '\'', '(', ')', '#']

/-- A character of an address by itself or as its bytes. A half that stands alone becomes a mark. -/
def encodeChar (c : Char) : Text :=
  if isPlain c then [c] else Text.percentChar (if Text.isHalf c then '\uFFFD' else c)

/-- Percent-encodes what is not plain; an escape that is there already stays. Two halves side by side that
make a pair are taken together and have no bytes. -/
def encode : Text → Except Fault Text
  | [] => .ok []
  | '%' :: a :: b :: r =>
    if isHex a && isHex b then (encode r).map fun u => '%' :: a :: b :: u
    else (encode (a :: b :: r)).map fun u => Text.percentByte 37 ++ u
  | c :: r =>
    if Text.isFirstHalf c && r.head?.any Text.isSecondHalf then .error .encoding
    else (encode r).map fun u => encodeChar c ++ u

/-- The bytes that a run of escapes at the beginning of a text stands for, and the rest. -/
def escapedBytes : Text → List Nat × Text
  | '%' :: a :: b :: r =>
    if isHex a && isHex b then
      let value (c : Char) : Nat := if c.isDigit then c.toNat - 48 else c.toLower.toNat - 87
      let (bytes, rest) := escapedBytes r
      ((16 * value a + value b) :: bytes, rest)
    else ([], '%' :: a :: b :: r)
  | t => ([], t)

def isContinuation (b : Nat) : Bool := b / 64 = 2

/-- The character of some bytes in UTF-8, or as many marks as there are bytes. -/
def joinBytes (count least n : Nat) : Text :=
  if n < least || 0x10FFFF < n || (0xD800 ≤ n && n < 0xE000) then
    List.replicate count '\uFFFD'
  else [Char.ofNat n]

/-- Characters that stay escaped in a shown address. -/
def staysEscaped (n : Nat) : Bool :=
  Char.ofNat n ∈ [';', '/', '?', ':', '@', '&', '=', '+', '$', ',', '#', '%']

/-- The characters of escaped bytes; a byte that fits nowhere becomes a mark. -/
def decodeBytes : List Nat → Text
  | [] => []
  | b1 :: r =>
    if b1 < 0x80 then
      (if staysEscaped b1 then Text.percentByte b1 else [Char.ofNat b1]) ++ decodeBytes r
    else
      match r with
      | b2 :: r2 =>
        if b1 / 32 = 6 && isContinuation b2 then
          joinBytes 2 0x80 (b1 % 32 * 64 + b2 % 64) ++ decodeBytes r2
        else match r2 with
          | b3 :: r3 =>
            if b1 / 16 = 14 && isContinuation b2 && isContinuation b3 then
              joinBytes 3 0x800 (b1 % 16 * 4096 + b2 % 64 * 64 + b3 % 64) ++ decodeBytes r3
            else match r3 with
              | b4 :: r4 =>
                if b1 / 8 = 30 && isContinuation b2 && isContinuation b3 && isContinuation b4 then
                  joinBytes 4 0x10000
                    (b1 % 8 * 262144 + b2 % 64 * 4096 + b3 % 64 * 64 + b4 % 64) ++ decodeBytes r4
                else '\uFFFD' :: decodeBytes (b2 :: b3 :: b4 :: r4)
              | [] => '\uFFFD' :: decodeBytes (b2 :: b3 :: [])
          | [] => '\uFFFD' :: decodeBytes (b2 :: [])
      | [] => ['\uFFFD']

/-- Decodes every run of escapes. -/
def decodeFrom : Nat → Text → Text
  | 0, t => t
  | _, [] => []
  | fuel + 1, c :: r =>
    match escapedBytes (c :: r) with
    | ([], _) => c :: decodeFrom fuel r
    | (bytes, rest) => decodeBytes bytes ++ decodeFrom fuel rest

def decode (t : Text) : Text := decodeFrom t.length t

/-- Schemes whose hosts have a form in ASCII; an address without a scheme counts among them. -/
def hasHostForms (protocol : Text) : Bool :=
  Text.isOneOf protocol (["", "http:", "https:", "mailto:"].map String.toList)

/-- An address as it is written into a document. -/
def written (t : Text) : Except Fault Text :=
  let a := read t
  encode (if hasHostForms a.protocol && !a.host.isEmpty then
    { a with host := HostLabel.toAscii a.host } else a).text

/-- An address as it is shown to readers. -/
def shown (t : Text) : Text :=
  let a := read t
  decode (if hasHostForms a.protocol && !a.host.isEmpty then
    { a with host := (HostLabel.toUnicode? a.host).getD a.host } else a).text

/-- Addresses that run scripts or reach local files are refused, but for four kinds of images. -/
def isAllowed (t : Text) : Bool :=
  let u := Text.lower (Text.trim t)
  let starts (ps : List String) : Bool := ps.any fun p => Text.startsWith p.toList u
  !starts ["vbscript:", "javascript:", "file:", "data:"] ||
    starts ["data:image/gif;", "data:image/png;", "data:image/jpeg;", "data:image/webp;"]

end Address
end Longform
