import Longform.Dictionary

/-! A directory as a value: texts by their paths. -/
namespace Longform.CommandLine

/-- Files by the names on their paths. -/
abbrev Directory := List (List Text × Text)

namespace Directory

/-- The names on a path; empty names and single dots mean nothing. -/
def names (path : Text) : List Text :=
  (Text.splitAt '/' path).filter fun n => !n.isEmpty && n ≠ ['.']

/-- Whether a path leads to a directory: the whole, or one that holds a file. -/
def isDirectory (d : Directory) (path : List Text) : Bool :=
  path.isEmpty || d.any fun (p, _) => path.isPrefixOf p && path.length < p.length

/-- The place that names lead to from a place; two dots lead back. -/
def walk (d : Directory) : List Text → List Text → Option (List Text)
  | place, [] => some place
  | place, n :: ns =>
    if !d.isDirectory place then none
    else if n = "..".toList then if place.isEmpty then none else walk d place.dropLast ns
    else walk d (place ++ [n]) ns

/-- The place of a path inside the directory. -/
def locate (d : Directory) (path : Text) : Option (List Text) :=
  if path.head? = some '/' then none else walk d [] (names path)

def ofFiles (files : Dictionary Text) : Directory := files.map fun (name, t) => (names name, t)

/-- The text of the file at a path. -/
def read (path : Text) (d : Directory) : Option Text := (d.locate path).bind fun p => d.lookup p

/-- Writes a file, into a directory that is there. -/
def write (path t : Text) (d : Directory) : Option Directory :=
  match d.locate path with
  | none => none
  | some p =>
    if d.isDirectory p then none
    else some (d.filter (fun (q, _) => q ≠ p) ++ [(p, t)])

end Directory
end Longform.CommandLine
