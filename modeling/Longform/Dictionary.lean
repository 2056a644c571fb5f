import Longform.Text.Basic

/-! Dictionaries in order of first insertion: a key that is set again keeps its place and takes the
new value. -/
namespace Longform

abbrev Dictionary (α : Type) := List (Text × α)

namespace Dictionary
variable {α : Type}

def find? (k : Text) : Dictionary α → Option α
  | [] => none
  | (k', v) :: r => if k' = k then some v else find? k r

def hasKey (k : Text) (d : Dictionary α) : Bool := (find? k d).isSome

def set (k : Text) (v : α) : Dictionary α → Dictionary α
  | [] => [(k, v)]
  | (k', v') :: r => if k' = k then (k', v) :: r else (k', v') :: set k v r

@[simp] theorem find?_set (k : Text) (v : α) (d : Dictionary α) : find? k (set k v d) = some v := by
  induction d with
  | nil => simp [set,find?]
  | cons entry d ih =>
    rw [set]
    split <;> simp [find?, *]

/-- The entries of the second dictionary set in the first, in order. -/
def merge (d e : Dictionary α) : Dictionary α := e.foldl (fun acc (k, v) => set k v acc) d

/-- A list of entries read in order, the last value of a key winning. -/
def ofEntries (es : List (Text × α)) : Dictionary α := merge [] es

def keys (d : Dictionary α) : List Text := d.map (·.1)

/-- The value of a key changed by `f`, or set to `f none` when the key is new. -/
def alter (k : Text) (f : Option α → α) (d : Dictionary α) : Dictionary α := set k (f (find? k d)) d

end Dictionary
end Longform
