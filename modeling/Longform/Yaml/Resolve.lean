import Longform.Text.Pattern

/-! Tags of YAML nodes, and the tag that an untagged plain text has by its form. -/
namespace Longform.Yaml.Tag
open Text Text.Pattern

/-- What the standard tags begin with. -/
def standard : Text := "tag:yaml.org,2002:".toList

def named (s : String) : Text := standard ++ s.toList

def null : Text := named "null"
def bool : Text := named "bool"
def int : Text := named "int"
def float : Text := named "float"
def binary : Text := named "binary"
def timestamp : Text := named "timestamp"
def omap : Text := named "omap"
def pairs : Text := named "pairs"
def set : Text := named "set"
def str : Text := named "str"
def seq : Text := named "seq"
def map : Text := named "map"
def merge : Text := named "merge"
def value : Text := named "value"

def words (ws : List String) : Pattern := .seq (any (ws.map str)) .ending
where
  str (s : String) : Pattern := Pattern.str s

def sign : Pattern := opt (one "-+")
def digit : Pattern := .char Char.isDigit
def digits : Pattern := .span 1 none Char.isDigit

/-- Figures with underscores among them. -/
def loose (p : Char → Bool) : Char → Bool := fun c => c = '_' || p c

def looseDigits : Pattern := .span 0 none (loose Char.isDigit)

def exponent : Pattern := opt (all [one "eE", one "-+", digits])

/-- A number in base sixty: groups below sixty behind colons. -/
def sixties : Pattern := plus (all [is ':', opt (.char fun c => '0' ≤ c && c ≤ '5'), digit])

def boolForm : Pattern := words ["yes", "Yes", "YES", "no", "No", "NO", "true", "True", "TRUE",
  "false", "False", "FALSE", "on", "On", "ON", "off", "Off", "OFF"]

def floatForm : Pattern := .seq (any [
  all [sign, digit, looseDigits, is '.', looseDigits, exponent],
  all [is '.', digit, looseDigits, exponent],
  all [sign, digit, looseDigits, sixties, is '.', looseDigits],
  all [sign, is '.', any [Pattern.str "inf", Pattern.str "Inf", Pattern.str "INF"]],
  all [is '.', any [Pattern.str "nan", Pattern.str "NaN", Pattern.str "NAN"]]]) .ending

def isOctal (c : Char) : Bool := '0' ≤ c && c ≤ '7'
def isHex (c : Char) : Bool := c.isDigit || ('a' ≤ c.toLower && c.toLower ≤ 'f')
def leadingDigit : Pattern := .char fun c => '1' ≤ c && c ≤ '9'

def intForm : Pattern := .seq (any [
  all [sign, Pattern.str "0b", .span 1 none (loose fun c => c = '0' || c = '1')],
  all [sign, is '0', .span 1 none (loose isOctal)],
  all [sign, any [is '0', .seq leadingDigit looseDigits]],
  all [sign, Pattern.str "0x", .span 1 none (loose isHex)],
  all [sign, leadingDigit, looseDigits, sixties]]) .ending

def year : Pattern := .span 4 (some 4) Char.isDigit
def two : Pattern := .span 2 (some 2) Char.isDigit
def oneOrTwo : Pattern := .span 1 (some 2) Char.isDigit
def gaps (least : Nat) : Pattern := .span least none fun c => c = ' ' || c = '\t'

def timestampForm : Pattern := .seq (any [
  all [year, is '-', two, is '-', two],
  all [year, is '-', oneOrTwo, is '-', oneOrTwo, any [one "Tt", gaps 1], oneOrTwo, is ':', two,
    is ':', two, opt (.seq (is '.') (.span 0 none Char.isDigit)),
    opt (.seq (gaps 0) (any [is 'Z', all [one "-+", oneOrTwo, opt (.seq (is ':') two)]]))]]) .ending

def nullForm : Pattern := words ["~", "null", "Null", "NULL"]

/-- The tag of a plain text. -/
def resolve (t : Text) : Text :=
  match t.head? with
  | none => null
  | some c =>
    let figure := c.isDigit || c = '-' || c = '+'
    if c ∈ "yYnNtTfFoO".toList && boolForm.isPrefixOf t then bool
    else if (figure || c = '.') && floatForm.isPrefixOf t then float
    else if figure && intForm.isPrefixOf t then int
    else if (words ["<<"]).isPrefixOf t then merge
    else if c ∈ "~nN".toList && nullForm.isPrefixOf t then null
    else if c.isDigit && timestampForm.isPrefixOf t then timestamp
    else if (words ["="]).isPrefixOf t then value
    else str

end Longform.Yaml.Tag
