import Longform.Text.Case
import Longform.Text.Pattern

/-! Markup that stands raw in source text: single tags in running text, and blocks of lines. -/
namespace Longform.Markdown.RawHtml
open Text Text.Pattern

def folded (s : String) : Pattern :=
  s.toList.foldr (fun c p => .seq (.char fun d => foldChar d = c) p) .empty

def blanks : Pattern := .span 0 none isBlank
def gap : Pattern := .span 1 none isBlank

def attributeName : Pattern := .seq
  (.char fun c => c.isAlpha || c = '_' || c = ':')
  (.span 0 none fun c => c.isAlphanum || c ∈ ":._-".toList)

def attributeValue : Pattern := any [
  .span 1 none (fun c => 32 < c.toNat && c ∉ "\"'=<>\x60".toList),
  all [is '\'', .span 0 none (· ≠ '\''), is '\''],
  all [is '"', .span 0 none (· ≠ '"'), is '"']]

def tagAttribute : Pattern :=
  all [gap, attributeName, opt (all [blanks, is '=', blanks, attributeValue])]

def tagName : Pattern := .seq (.char Char.isAlpha) (.span 0 none fun c => c.isAlphanum || c = '-')

def openTag : Pattern := all [is '<', tagName, star tagAttribute, blanks, opt (is '/'), is '>']
def closeTag : Pattern := all [str "</", tagName, blanks, is '>']

/-- Everything up to and including a text. -/
def upTo (s : String) : Pattern := .seq (lazyStar (.char fun _ => true)) (str s)

def comment : Pattern := any [str "<!-->", str "<!--->", all [str "<!--",
  star (any [.char (· ≠ '-'), .seq (is '-') (.char (· ≠ '-')), .seq (str "--") (.char (· ≠ '>'))]),
  str "-->"]]
def instruction : Pattern := .seq (str "<?") (upTo "?>")
def declaration : Pattern :=
  all [str "<!", .char Char.isAlpha, .span 0 none (· ≠ '>'), is '>']
def rawData : Pattern := .seq (str "<![CDATA[") (upTo "]]>")

/-- A tag, comment, instruction, declaration or raw section. -/
def tag : Pattern := any [openTag, closeTag, comment, instruction, declaration, rawData]

/-- Tags of links, between which no bare address becomes a link. -/
def opensLink (t : Text) : Bool :=
  (Pattern.seq (folded "<a") (.char fun c => c = '>' || isBlank c)).isPrefixOf t
def closesLink (t : Text) : Bool := (all [folded "</a", blanks, is '>']).isPrefixOf t

/-- Elements that make a block of their own. -/
def blockNames : List String := ["address", "article", "aside", "base", "basefont", "blockquote",
  "body", "caption", "center", "col", "colgroup", "dd", "details", "dialog", "dir", "div", "dl",
  "dt", "fieldset", "figcaption", "figure", "footer", "form", "frame", "frameset", "h1", "h2", "h3",
  "h4", "h5", "h6", "head", "header", "hr", "html", "iframe", "legend", "li", "link", "main", "menu",
  "menuitem", "nav", "noframes", "ol", "optgroup", "option", "p", "param", "search", "section",
  "summary", "table", "tbody", "td", "tfoot", "th", "thead", "title", "tr", "track", "ul"]

/-- The kinds of blocks: how the first line begins, what the last line holds, and whether the block
may interrupt a paragraph. A block without a last pattern ends before a blank line. -/
structure Kind where
  first : Pattern
  last : Option Pattern
  interrupts : Bool

def literalNames : Pattern := any (["script", "pre", "style", "textarea"].map folded)

def kinds : List Kind := [
  ⟨all [is '<', literalNames, .look (any [.char isBlank, is '>', .ending])],
    some (all [str "</", literalNames, is '>']), true⟩,
  ⟨str "<!--", some (str "-->"), true⟩,
  ⟨str "<?", some (str "?>"), true⟩,
  ⟨.seq (str "<!") (.char Char.isUpper), some (is '>'), true⟩,
  ⟨str "<![CDATA[", some (str "]]>"), true⟩,
  ⟨all [is '<', opt (is '/'), any (blockNames.map folded),
    .look (any [.char isBlank, .seq (opt (is '/')) (is '>'), .ending])], none, true⟩,
  ⟨all [.alt openTag closeTag, blanks, .ending], none, false⟩]

/-- The kind of block that a line begins. -/
def kind? (line : Text) : Option Kind := kinds.find? fun k => k.first.isPrefixOf line

/-- Whether a line ends a block. -/
def Kind.endsAt (k : Kind) (line : Text) : Bool :=
  match k.last with
  | some p => p.occursIn line
  | none => line.isEmpty

end Longform.Markdown.RawHtml
