import Longform.CommandLine.Argument
import Longform.Output

/-! What a command line asks for. -/
namespace Longform.CommandLine

/-- A key and its value, from a text with an equals sign between them. -/
def readAttribute (t : Text) : Except Fault (Text × Text) :=
  match Text.cutAt '=' t with
  | none => .error (.attributeForm t)
  | some (key, value) =>
    if Text.allBlank key then .error (.attributeForm t) else .ok (Text.trim key, value)

/-- The attributes that pairs give; a later value of a key wins. -/
def readAttributes (pairs : List Text) : Except Fault (Dictionary Text) :=
  (pairs.mapM readAttribute).map Dictionary.ofEntries

structure Invocation where
  input : Text
  template : Option Text
  output : Option Text
  mode : Output.Mode
  attributes : Dictionary Text
  capacity : Option Float

/-- What a command line asks for: help, or a compilation. -/
inductive Request
  | help
  | compile (i : Invocation)

/-- What the arguments read so far ask for. -/
structure Options where
  help : Bool
  input : Option Text
  template : Option Text
  output : Option Text
  mode : Output.Mode
  pairs : List Text
  capacity : Option Float

namespace Options

def empty : Options := ⟨false, none, none, none, .document, [], none⟩

/-- An option with its value. -/
def set (f : Flag) (value : Text) (d : Options) : Except Misuse Options :=
  match f with
  | .help | .verbose => .error (.unwantedValue f)
  | .template => .ok { d with template := some value }
  | .output => .ok { d with output := some value }
  | .attr => .ok { d with pairs := d.pairs ++ [value] }
  | .mode => match Output.Mode.ofName? value with
    | some mode => .ok { d with mode := mode }
    | none => .error (.badValue f value)
  | .capacity => match Decimal.number? value with
    | some x => .ok { d with capacity := some x }
    | none => .error (.badValue f value)

/-- An option without a value. -/
def turnOn (f : Flag) (d : Options) : Except Misuse Options :=
  match f with
  | .help => .ok { d with help := true }
  | .verbose => .ok d
  | _ => .error (.missingValue f)

/-- Short options by their letters in one argument. -/
def turnOnAll : Text → Options → Except Misuse Options
  | [], d => .ok d
  | c :: cs, d => match Flag.ofName? ['-', c] with
    | some f => (turnOn f d).bind (turnOnAll cs)
    | none => .error (.unknown ['-', c])

/-- An argument that is no option. There is one input. -/
def place (t : Text) (d : Options) : Except Misuse Options :=
  if d.input.isNone then .ok { d with input := some t } else .error (.surplus t)

/-- Reads arguments from left to right. A divider stands in front of the input or right behind it. -/
def readFrom (d : Options) : List Argument → Except Misuse Options
  | [] => .ok d
  | .option f _ none :: rest =>
    if f.takesValue then match rest with
      | .plain t :: rest => (d.set f t).bind fun d => readFrom d rest
      | _ => .error (.missingValue f)
    else (d.turnOn f).bind fun d => readFrom d rest
  | .option f short (some value) :: rest =>
    if f.takesValue then (d.set f value).bind fun d => readFrom d rest
    else if short && !value.isEmpty then
      ((d.turnOn f).bind (turnOnAll value)).bind fun d => readFrom d rest
    else .error (.unwantedValue f)
  | [.plain t, .divider] => d.place t
  | .plain t :: rest => (d.place t).bind fun d => readFrom d rest
  | .divider :: .plain t :: rest => (d.place t).bind fun d => readFrom d rest
  | .divider :: _ => .error (.surplus "--".toList)

/-- The request that has been read. -/
def finish (d : Options) : Except Misuse Request :=
  if d.help then .ok .help
  else match d.input with
    | none => .error .missingInput
    | some input => match readAttributes d.pairs with
      | .ok attributes =>
        .ok (.compile ⟨input, d.template, d.output, d.mode, attributes, d.capacity⟩)
      | .error _ => .error (.badValue .attr (Text.join [' '] d.pairs))

end Options

/-- Reads a command line. -/
def Request.read (arguments : List Text) : Except Misuse Request := do
  let args ← Argument.readAll arguments
  let d ← Options.empty.readFrom args
  d.finish

namespace Invocation

/-- Compiles a source as an invocation asks. -/
def render (i : Invocation) (source : Text) : Compile Text :=
  let context : Context := .ofSettings
    [(.text "attributes".toList, .map (i.attributes.map fun (k, v) => (.text k, .text v)))]
  Output.render i.mode (Print.estimated (i.capacity.getD Page.defaultCapacity)) context source

end Invocation
end Longform.CommandLine
