import Longform.Text.Basic
import Longform.Text.Letter

/-! Arguments of the command line. Options have long names, which may be cut short as long as they
stay unambiguous, and some have short ones. -/
namespace Longform.CommandLine

inductive Flag
  | help
  | template
  | output
  | mode
  | attr
  | capacity
  | verbose
deriving DecidableEq, Repr

namespace Flag

/-- Every name of an option. -/
def names : List (Text × Flag) := [("-h".toList, .help), ("--help".toList, .help),
  ("--template".toList, .template), ("--output".toList, .output), ("--mode".toList, .mode),
  ("--attr".toList, .attr), ("--capacity".toList, .capacity), ("--verbose".toList, .verbose),
  ("-v".toList, .verbose)]

def ofName? (name : Text) : Option Flag := names.lookup name

/-- Whether a value belongs to an option. -/
def takesValue : Flag → Bool
  | .help | .verbose => false
  | _ => true

end Flag

/-- Why a command line is refused. -/
inductive Misuse
  /-- A name cut so short that it means several options. -/
  | ambiguous (argument : Text)
  | unknown (argument : Text)
  | missingValue (flag : Flag)
  | unwantedValue (flag : Flag)
  /-- A value that an option does not have. -/
  | badValue (flag : Flag) (value : Text)
  | missingInput
  /-- An argument behind all that are expected. -/
  | surplus (argument : Text)
  /-- Options that do not go together. -/
  | templateWithoutDocument
deriving DecidableEq, Repr

/-- What an argument is. -/
inductive Argument
  /-- An option by its full name, with the value that is part of the argument. -/
  | option (flag : Flag) (short : Bool) (value : Option Text)
  | plain (t : Text)
  /-- The argument behind which all others are plain. -/
  | divider
deriving DecidableEq, Repr

namespace Argument

/-- Digits of any script, and at least one. -/
def allDigits (t : Text) : Bool := !t.isEmpty && t.all fun c => (Text.decimalValue? c).isSome

/-- A negative number without exponent. A line break may follow it. -/
def isNegativeNumber (t : Text) : Bool :=
  match t with
  | '-' :: r =>
    let r := if r.getLast? = some '\n' then r.dropLast else r
    allDigits r || match Text.cutAt '.' r with
      | some (whole, part) => (whole.isEmpty || allDigits whole) && allDigits part
      | none => false
  | _ => false

def isLong (t : Text) : Bool := Text.startsWith "--".toList t

def cutValue (t : Text) : Text × Option Text :=
  match Text.cutAt '=' t with
  | some (name, value) => (name, some value)
  | none => (t, none)

/-- The options that a name which is cut short may mean. A short option takes what follows its letter
as a value. -/
def candidates (t : Text) : List Argument :=
  if isLong t then
    let (start, value) := cutValue t
    (Flag.names.filter fun (name, _) => Text.startsWith start name).map fun (_, f) =>
      option f false value
  else
    Flag.names.filterMap fun (name, f) =>
      if name = t.take 2 then some (option f true (some (t.drop 2)))
      else if Text.startsWith t name then some (option f (!isLong name) none)
      else none

/-- Reads an argument by itself. -/
def read (t : Text) : Except Misuse Argument :=
  if !Text.startsWith ['-'] t || t = ['-'] then .ok (.plain t)
  else match Flag.ofName? t with
    | some f => .ok (.option f (!isLong t) none)
    | none =>
      let (name, value) := cutValue t
      match value.bind fun _ => Flag.ofName? name with
      | some f => .ok (.option f (!isLong t) value)
      | none => match candidates t with
        | [a] => .ok a
        | _ :: _ :: _ => .error (.ambiguous t)
        | [] =>
          if isNegativeNumber t || ' ' ∈ t then .ok (.plain t) else .error (.unknown t)

/-- Reads arguments. Behind a divider, all are plain. -/
def readAll : List Text → Except Misuse (List Argument)
  | [] => .ok []
  | t :: ts =>
    if t = "--".toList then .ok (.divider :: ts.map .plain)
    else do
      let a ← read t
      let rest ← readAll ts
      .ok (a :: rest)

end Argument
end Longform.CommandLine
