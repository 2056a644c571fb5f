import Longform.CommandLine.Run

/-! The compiler as a program: files are those of the system, notices and faults go to the standard
error stream. -/
namespace Longform.CommandLine

/-- What a file access gives, none if it fails. -/
def attempt {α : Type} (access : IO α) : IO (Option α) := do
  try
    return some (← access)
  catch _ => return none

def systemFiles : Files IO where
  read path := attempt do return (← IO.FS.readFile (String.ofList path)).toList
  write path t := attempt (IO.FS.writeFile (String.ofList path) (String.ofList t))

def noticeText : Notice → String
  | .frontMatter => "front matter cannot be read"
  | .fence => "a block cannot be read and is shown as code"
  | .oversized => "content larger than a page stands alone on one"
  | .file => "a file cannot be read or written"

def report (notices : List Notice) : IO Unit := do
  for n in notices do
    (← IO.getStderr).putStrLn (noticeText n)

end Longform.CommandLine

open Longform.CommandLine in
def main (arguments : List String) : IO UInt32 := do
  let outcome ← run systemFiles (arguments.map String.toList)
  report outcome.notices
  (← IO.getStdout).putStr (String.ofList outcome.printed)
  match outcome.status with
  | .ok status => return status.toUInt32
  | .error _ =>
    (← IO.getStderr).putStrLn "the source cannot be compiled"
    return 1
