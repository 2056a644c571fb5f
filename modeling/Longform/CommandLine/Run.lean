import Longform.CommandLine.Invocation
import Longform.Template

/-! The run of a command line over files. -/
namespace Longform.CommandLine

/-- Access to files by path; what cannot be read or written is none. -/
structure Files (m : Type → Type) where
  read : Text → m (Option Text)
  write : Text → Text → m (Option Unit)

/-- How a run ends: its status, or the fault that breaks it off, what it prints, and what it
reports. -/
structure Outcome where
  status : Except Fault Nat
  printed : Text
  notices : List Notice

namespace Outcome

/-- A run that ends because of the command line itself. -/
def refused (notices : List Notice) : Outcome := ⟨.ok 2, [], notices⟩

/-- A run that ends because of a file. -/
def failed (notices : List Notice) : Outcome := ⟨.ok 1, [], notices ++ [.file]⟩

def broken (cause : Fault) (notices : List Notice) : Outcome := ⟨.error cause, [], notices⟩

def printing (t : Text) (notices : List Notice) : Outcome := ⟨.ok 0, t, notices⟩

end Outcome

/-- Line breaks of every kind as line feeds. -/
def unifyBreaks : Text → Text
  | [] => []
  | '\r' :: '\n' :: r => '\n' :: unifyBreaks r
  | c :: r => (if c = '\r' then '\n' else c) :: unifyBreaks r

/-- The arguments that are understood. -/
def usage : Text := ("[-h] [--template FILE] [--output FILE] " ++
  "[--mode document|chapters|slides|pages] [--attr KEY=VALUE] [--capacity LINES] [-v] input\n").toList

variable {m : Type → Type} [Monad m]

/-- Writes what was compiled to a file, or prints it as a line. -/
def deliver (files : Files m) (i : Invocation) (notices : List Notice) (t : Text) : m Outcome :=
  match i.output with
  | none => pure (.printing (t ++ ['\n']) notices)
  | some path => do
    match ← files.write path t with
    | some () => pure (.printing [] notices)
    | none => pure (.failed notices)

/-- Puts what was compiled into the template, if there is one. Only documents in one piece have a
template. -/
def wrap (files : Files m) (i : Invocation) (notices : List Notice) (t : Text) : m Outcome :=
  match i.template with
  | none => deliver files i notices t
  | some path =>
    if i.mode ≠ .document then pure (.refused notices)
    else do
      match ← files.read path with
      | some template => deliver files i notices (Template.fill (unifyBreaks template) t)
      | none => pure (.failed notices)

/-- Compiles the input of an invocation. -/
def compile (files : Files m) (i : Invocation) : m Outcome := do
  match ← files.read i.input with
  | none => pure (.failed [])
  | some source => match (i.render (unifyBreaks source)).run with
    | (.error cause, notices) => pure (.broken cause notices)
    | (.ok t, notices) => wrap files i notices t

/-- Runs a command line. -/
def run (files : Files m) (arguments : List Text) : m Outcome :=
  match Request.read arguments with
  | .error _ => pure (.refused [])
  | .ok .help => pure (.printing usage [])
  | .ok (.compile i) => compile files i

end Longform.CommandLine
