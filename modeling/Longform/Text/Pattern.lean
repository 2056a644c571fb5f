import Longform.Text.Basic

/-! Patterns of characters with ordered choice. A match is the first one in the order of choices;
repetition prefers more, or with `lazy` fewer, rounds. Matching is total: a round of a repetition
that consumes nothing ends it. -/
namespace Longform.Text

inductive Pattern
  | empty
  | char (p : Char → Bool)
  /-- As many characters as possible, fewer if the rest of the match asks for it. -/
  | span (min : Nat) (max : Option Nat) (p : Char → Bool)
  | seq (a b : Pattern)
  | alt (a b : Pattern)
  | rep (min : Nat) (max : Option Nat) (lazy : Bool) (p : Pattern)
  | look (p : Pattern)
  | notLook (p : Pattern)
  /-- The end of the text, or the place before a last line feed. -/
  | ending

/-- A place in a text: how much has been consumed, and what is left. -/
structure Cursor where
  pos : Nat
  rest : Text

/-- Repeats a matcher; `fuel` bounds the rounds, `count` is how many were done. -/
def repeatMatch (step : Cursor → (Cursor → Option Cursor) → Option Cursor)
    (min : Nat) (max : Option Nat) (lazy : Bool) (k : Cursor → Option Cursor) :
    Nat → Nat → Cursor → Option Cursor
  | 0, count, c => if min ≤ count then k c else none
  | fuel + 1, count, c =>
    let stop : Unit → Option Cursor := fun _ => if min ≤ count then k c else none
    let more : Unit → Option Cursor := fun _ =>
      if max.all (count < ·) then
        step c fun c' =>
          if c'.pos = c.pos && min ≤ count then none
          else repeatMatch step min max lazy k fuel (count + 1) c'
      else none
    if lazy then (stop ()).orElse more else (more ()).orElse stop

/-- The places that a run of characters can end at, the farthest first. -/
def spanEnds (p : Char → Bool) : Nat → Cursor → List Cursor → List Cursor
  | 0, c, found => c :: found
  | fuel + 1, c, found => match c.rest with
    | [] => c :: found
    | x :: r => if p x then spanEnds p fuel ⟨c.pos + 1, r⟩ (c :: found) else c :: found

/-- Matches a pattern at a place and goes on with `k`. -/
def Pattern.run : Pattern → Cursor → (Cursor → Option Cursor) → Option Cursor
  | .empty, c, k => k c
  | .char p, c, k => match c.rest with
    | [] => none
    | x :: r => if p x then k ⟨c.pos + 1, r⟩ else none
  | .span min max p, c, k =>
    ((spanEnds p (max.getD c.rest.length) c []).filter (c.pos + min ≤ ·.pos)).findSome? k
  | .seq a b, c, k => a.run c fun c' => b.run c' k
  | .alt a b, c, k => (a.run c k).orElse fun _ => b.run c k
  | .rep min max lazy p, c, k =>
    repeatMatch (fun c k => p.run c k) min max lazy k (c.rest.length + min + 1) 0 c
  | .look p, c, k => if (p.run c some).isSome then k c else none
  | .notLook p, c, k => if (p.run c some).isSome then none else k c
  | .ending, c, k => match c.rest with
    | [] => k c
    | ['\n'] => k c
    | _ => none

namespace Pattern

/-- How many characters the pattern matches where a text begins. -/
def length? (p : Pattern) (t : Text) : Option Nat := (p.run ⟨0, t⟩ some).map (·.pos)

def isPrefixOf (p : Pattern) (t : Text) : Bool := (p.length? t).isSome

/-- The first place where the pattern matches, with the length of the match. -/
def findFrom? (p : Pattern) : Nat → Text → Option (Nat × Nat)
  | n, [] => (p.length? []).map fun k => (n, k)
  | n, c :: r => match p.length? (c :: r) with
    | some k => some (n, k)
    | none => findFrom? p (n + 1) r

def find? (p : Pattern) (t : Text) : Option (Nat × Nat) := p.findFrom? 0 t

def occursIn (p : Pattern) (t : Text) : Bool := (p.find? t).isSome

/-- One given character. -/
def is (c : Char) : Pattern := .char (· = c)

/-- One of the given characters. -/
def one (cs : String) : Pattern := .char fun c => c ∈ cs.toList

/-- A given text. -/
def text (t : Text) : Pattern := t.foldr (fun c p => .seq (is c) p) .empty

def str (s : String) : Pattern := text s.toList

def all (ps : List Pattern) : Pattern := ps.foldr .seq .empty

/-- The first of several patterns that matches; at least one has to be given. -/
def any : List Pattern → Pattern
  | [] => .char fun _ => false
  | [p] => p
  | p :: q :: ps => .alt p (any (q :: ps))

def star (p : Pattern) : Pattern := .rep 0 none false p
def plus (p : Pattern) : Pattern := .rep 1 none false p
def opt (p : Pattern) : Pattern := .rep 0 (some 1) false p
def times (min max : Nat) (p : Pattern) : Pattern := .rep min (some max) false p
def lazyStar (p : Pattern) : Pattern := .rep 0 none true p

end Pattern
end Longform.Text
