import Longform.Fault

/-! Computations that may fail and that report, on the way, what they had to replace. -/
namespace Longform

/-- What a reader of a compiled document should know about its source. -/
inductive Notice
  /-- Front matter that could not be read. -/
  | frontMatter
  /-- A block in a language of its own that could not be read and is shown as code. -/
  | fence
  /-- Content that is larger than a page and stands alone on one. -/
  | oversized
  /-- A file that could not be read or written. -/
  | file
deriving DecidableEq, Repr

abbrev Compile := ExceptT Fault (StateM (List Notice))

namespace Compile

def note (n : Notice) : Compile Unit := modify (· ++ [n])

def ofExcept {α : Type} (e : Except Fault α) : Compile α := ExceptT.mk (pure e)

/-- The result, with the notices in order. -/
def run {α : Type} (c : Compile α) : Except Fault α × List Notice := StateT.run (ExceptT.run c) []

end Compile
end Longform
