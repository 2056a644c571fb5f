import Longform.Text.Basic

/-! Fences of source text. A fence opens with three or more backticks or tildes and closes with a
line of at least as many of the same character; every line-oriented stage copies its lines
unchanged. -/
namespace Longform
namespace Fence

/-- Where a line-oriented reader stands: between fences, or inside one. -/
inductive State
  | normal
  | inside (mark : Char) (length : Nat)
deriving DecidableEq, Repr

/-- The mark and length of the fence that a line opens. After spaces and tabs it starts with the
mark; nothing after a run of backticks holds a backtick. -/
def opener? (line : Text) : Option (Char × Nat) :=
  match line.dropWhile (fun c => c = ' ' || c = '\t') with
  | [] => none
  | c :: r =>
    if c = '\x60' || c = '~' then
      let n := (r.takeWhile (· = c)).length + 1
      match Text.oneLine? (r.dropWhile (· = c)) with
      | none => none
      | some info =>
        if n < 3 || (c = '\x60' && '\x60' ∈ info) then none else some (c, n)
    else none

/-- Whether a line closes a fence of `n` marks `c`: it trims to at least `n` copies of `c`. -/
def closes (c : Char) (n : Nat) (line : Text) : Bool :=
  let t := Text.trim line
  n ≤ t.length && t.all (· = c)

/-- The state after a line. -/
def advance : State → Text → State
  | .inside c n, line => if closes c n line then .normal else .inside c n
  | .normal, line => match opener? line with
    | some (c, n) => .inside c n
    | none => .normal

/-- A line belongs to a fence when the state before it or after it is inside one. -/
def State.isFenced : State → State → Bool
  | .normal, .normal => false
  | _, _ => true

/-- Each line with whether it belongs to a fence, from a given state on. -/
def scanFrom : State → List Text → List (Text × Bool)
  | _, [] => []
  | s, l :: ls => (l, s.isFenced (advance s l)) :: scanFrom (advance s l) ls

def scan (ls : List Text) : List (Text × Bool) := scanFrom .normal ls

/-- The state after each line. -/
def states : State → List Text → List State
  | _, [] => []
  | s, l :: ls => advance s l :: states (advance s l) ls

end Fence
end Longform
