import Longform.Markdown.Abbreviation
import Longform.Markdown.Render

/-! A token stream at work: its tokens and the abbreviations that are known so far. -/
namespace Longform.Markdown

structure Stream where
  tokens : List Token
  abbreviations : Dictionary Text

namespace Stream

def empty : Stream := ⟨[], []⟩

def read (searchPrefix : Option Text) (t : Text) (s : Stream) : Except Fault Stream :=
  (parse searchPrefix t).map fun ts => { s with tokens := ts }

/-- Hides the definitions in the stream; gives them, too. -/
def collect (s : Stream) : Stream × Dictionary Text :=
  let (ts, found) := Abbreviation.collect s.tokens
  (⟨ts, s.abbreviations.merge found⟩, found)

def define (found : Dictionary Text) (s : Stream) : Stream :=
  { s with abbreviations := s.abbreviations.merge found }

def replace (s : Stream) : Stream :=
  { s with tokens := Abbreviation.replace s.abbreviations s.tokens }

/-- The place that a position means; negative positions count from the end. -/
def place? (i : Int) (s : Stream) : Except Fault Nat :=
  let n := if i < 0 then i + s.tokens.length else i
  if 0 ≤ n && n < s.tokens.length then .ok n.toNat else .error .position

def hide (i : Int) (s : Stream) : Except Fault Stream :=
  (s.place? i).map fun n => { s with tokens := s.tokens.modify n Abbreviation.hide }

def drop (i : Int) (s : Stream) : Except Fault Stream :=
  (s.place? i).map fun n => { s with tokens := s.tokens.eraseIdx n }

/-- The markup of the stream. Rendering gives the images their descriptions. -/
def render (room : Nat) (s : Stream) : Compile (Stream × Text) := do
  let html ← Markdown.render room s.tokens
  pure ({ s with tokens := describeImages s.tokens }, html)

end Stream
end Longform.Markdown
