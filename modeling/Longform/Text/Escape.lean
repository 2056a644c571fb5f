import Longform.Text.Basic

/-! Characters written as references so that a text stands for itself in markup. -/
namespace Longform.Text

/-- A character of element content. -/
def escapeContentChar (c : Char) : Text :=
  if c = '&' then "&amp;".toList else if c = '<' then "&lt;".toList
  else if c = '>' then "&gt;".toList else [c]

/-- A character of an attribute value that either quote may delimit. -/
def escapeAttributeChar (c : Char) : Text :=
  if c = '"' then "&quot;".toList else if c = '\'' then "&#x27;".toList else escapeContentChar c

/-- A character of a rendered document: the straight double quote is written as a reference, the
single quote stands. -/
def escapeMarkupChar (c : Char) : Text :=
  if c = '"' then "&quot;".toList else escapeContentChar c

def escapeContent (t : Text) : Text := t.flatMap escapeContentChar
def escapeAttribute (t : Text) : Text := t.flatMap escapeAttributeChar
def escapeMarkup (t : Text) : Text := t.flatMap escapeMarkupChar

end Longform.Text
