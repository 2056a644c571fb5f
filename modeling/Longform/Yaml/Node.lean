import Longform.Yaml.Resolve
import Longform.Yaml.Token

/-! A YAML document as nodes. Nodes are known by number, since an alias stands for the very node that
its anchor names, which may even be a node around it. -/
namespace Longform.Yaml

inductive Content
  | scalar (t : Text)
  | sequence (items : List Nat)
  | mapping (entries : List (Nat × Nat))

structure Node where
  tag : Text
  content : Content

instance : Inhabited Node := ⟨⟨[], .scalar []⟩⟩

structure Composer where
  tokens : List Token
  /-- What stopped the tokens early. -/
  problem : Problem
  handles : Dictionary Text
  nodes : Array Node
  anchors : Dictionary Nat
  /-- How many levels of collections may still be opened. -/
  room : Nat

abbrev Compose := StateT Composer (Except Problem)

namespace Compose

def peek : Compose Token := do
  let s ← get
  match s.tokens with
  | [] => throw s.problem
  | t :: _ => return t

def skip : Compose Unit := modify fun s => { s with tokens := s.tokens.tail }

/-- Skips the next token if it is `t`; tells whether it was. -/
def accept (t : Token) : Compose Bool := do
  if (← peek) = t then
    skip
    return true
  else return false

/-- Skips the next token, which has to be `t`. -/
def expect (t : Token) : Compose Unit := do
  if !(← accept t) then throw .malformed

def isNext (ts : List Token) : Compose Bool := return (← peek) ∈ ts

def add (n : Node) : Compose Nat := do
  let s ← get
  set { s with nodes := s.nodes.push n }
  return s.nodes.size

def setContent (i : Nat) (c : Content) : Compose Unit :=
  modify fun s => { s with nodes := s.nodes.modify i fun n => { n with content := c } }

/-- Names a node; a name may be given once only. -/
def nameNode (anchor : Option Text) (i : Nat) : Compose Unit :=
  match anchor with
  | none => pure ()
  | some a => modify fun s => { s with anchors := s.anchors.set a i }

/-- Reads what is inside a collection, one level down. -/
def inside {α : Type} (read : Compose α) : Compose α := do
  match (← get).room with
  | 0 => throw (.refused .descent)
  | room + 1 =>
    modify fun s => { s with room := room }
    let found ← read
    modify fun s => { s with room := room + 1 }
    return found

/-- A node for nothing at all. -/
def empty : Compose Nat := add ⟨Tag.null, .scalar []⟩

def anchor? : Compose (Option Text) := do
  match ← peek with
  | .anchor a => skip; return some a
  | _ => return none

/-- A tag with its handle expanded. -/
def tag? : Compose (Option Text) := do
  match ← peek with
  | .tag none suffix => skip; return some suffix
  | .tag (some handle) suffix =>
    skip
    match (← get).handles.find? handle with
    | some expansion => return some (expansion ++ suffix)
    | none => throw .malformed
  | _ => return none

/-- Anchor and tag in front of a node, in either order. -/
def properties : Compose (Option Text × Option Text) := do
  match ← anchor? with
  | some a => return (some a, ← tag?)
  | none =>
    let t ← tag?
    if t.isSome then return (← anchor?, t) else return (none, none)

mutual
/-- A node. `block` tells whether blocks may stand here, `bare` whether a block sequence that is not
indented may. -/
def node (block bare : Bool) : Nat → Compose Nat
  | 0 => throw .malformed
  | fuel + 1 => do
    match ← peek with
    | .alias name =>
      skip
      match (← get).anchors.find? name with
      | some i => return i
      | none => throw .malformed
    | _ =>
      let (anchor, tag) ← properties
      let taken := (← get).anchors
      if anchor.any (taken.hasKey ·) then throw .malformed
      let own := tag.filter fun t => t ≠ ['!']
      let begins (kind : Text) : Compose Nat := do
        let i ← add ⟨own.getD kind, .scalar []⟩
        nameNode anchor i
        return i
      let t ← peek
      if bare && t = .entry then
        let i ← begins Tag.seq
        setContent i (.sequence (← inside (bareItems fuel)))
        return i
      else match t with
        | .scalar content isPlain =>
          skip
          let implicit := (isPlain && tag.isNone) || tag = some ['!']
          let kind := if implicit then Tag.resolve content else Tag.str
          let i ← add ⟨own.getD kind, .scalar content⟩
          nameNode anchor i
          return i
        | .sequenceStart =>
          skip
          let i ← begins Tag.seq
          setContent i (.sequence (← inside (flowItems true fuel)))
          return i
        | .mappingStart =>
          skip
          let i ← begins Tag.map
          setContent i (.mapping (← inside (flowEntries true fuel)))
          return i
        | _ =>
          if block && t = .blockSequence then
            skip
            let i ← begins Tag.seq
            setContent i (.sequence (← inside (blockItems fuel)))
            return i
          else if block && t = .blockMapping then
            skip
            let i ← begins Tag.map
            setContent i (.mapping (← inside (blockEntries fuel)))
            return i
          else if anchor.isSome || tag.isSome then
            let i ← add ⟨own.getD Tag.null, .scalar []⟩
            nameNode anchor i
            return i
          else throw .malformed

/-- A node, or nothing in front of some tokens. -/
def nodeUnless (ends : List Token) (block bare : Bool) : Nat → Compose Nat
  | 0 => throw .malformed
  | fuel + 1 => do if ← isNext ends then empty else node block bare fuel

def blockItems : Nat → Compose (List Nat)
  | 0 => throw .malformed
  | fuel + 1 => do
    if ← accept .entry then
      let i ← nodeUnless [.entry, .blockEnd] true false fuel
      return i :: (← blockItems fuel)
    else
      expect .blockEnd
      return []

def bareItems : Nat → Compose (List Nat)
  | 0 => throw .malformed
  | fuel + 1 => do
    if ← accept .entry then
      let i ← nodeUnless [.entry, .key, .value, .blockEnd] true false fuel
      return i :: (← bareItems fuel)
    else return []

def blockEntries : Nat → Compose (List (Nat × Nat))
  | 0 => throw .malformed
  | fuel + 1 => do
    if ← accept .key then
      let k ← nodeUnless [.key, .value, .blockEnd] true true fuel
      let v ← if ← accept .value then nodeUnless [.key, .value, .blockEnd] true true fuel else empty
      return (k, v) :: (← blockEntries fuel)
    else
      expect .blockEnd
      return []

/-- The items of a sequence in brackets. A key makes a mapping of one entry. -/
def flowItems (first : Bool) : Nat → Compose (List Nat)
  | 0 => throw .malformed
  | fuel + 1 => do
    if ← accept .sequenceEnd then return []
    if !first then expect .separator
    if ← accept .key then
      let i ← add ⟨Tag.map, .mapping []⟩
      let entry ← inside do
        let k ← nodeUnless [.value, .separator, .sequenceEnd] false false fuel
        let v ← if ← accept .value then nodeUnless [.separator, .sequenceEnd] false false fuel
          else empty
        return (k, v)
      setContent i (.mapping [entry])
      return i :: (← flowItems false fuel)
    else if ← accept .sequenceEnd then return []
    else
      let i ← node false false fuel
      return i :: (← flowItems false fuel)

def flowEntries (first : Bool) : Nat → Compose (List (Nat × Nat))
  | 0 => throw .malformed
  | fuel + 1 => do
    if ← accept .mappingEnd then return []
    if !first then expect .separator
    if ← accept .key then
      let k ← nodeUnless [.value, .separator, .mappingEnd] false false fuel
      let v ← if ← accept .value then nodeUnless [.separator, .mappingEnd] false false fuel else empty
      return (k, v) :: (← flowEntries false fuel)
    else if ← accept .mappingEnd then return []
    else
      let k ← node false false fuel
      let v ← empty
      return (k, v) :: (← flowEntries false fuel)
end

/-- The directives in front of a document; each handle may be given once, and one version. -/
def directives : Nat → Bool → Dictionary Text → Compose (Dictionary Text)
  | 0, _, _ => throw .malformed
  | fuel + 1, versioned, handles => do
    match ← peek with
    | .version major =>
      if versioned || major ≠ 1 then throw .malformed
      skip
      directives fuel true handles
    | .handle name expansion =>
      if handles.hasKey name then throw .malformed
      skip
      directives fuel versioned (handles.set name expansion)
    | .directive => skip; directives fuel versioned handles
    | _ => return handles

def skipDocumentEnds : Nat → Compose Unit
  | 0 => pure ()
  | fuel + 1 => do if ← accept .documentEnd then skipDocumentEnds fuel

/-- The handles that are known without a directive. -/
def standardHandles : Dictionary Text := [(['!'], ['!']), (['!', '!'], Tag.standard)]

/-- The only document of a text; none when there is nothing at all. -/
def document (fuel : Nat) : Compose (Option Nat) := do
  let root ← match ← peek with
    | .streamEnd => pure none
    | .directive | .version _ | .handle _ _ | .documentStart => do
      let handles ← directives fuel false []
      modify fun s => { s with handles := standardHandles.merge handles }
      expect .documentStart
      match ← peek with
      | .directive | .version _ | .handle _ _ | .documentStart | .documentEnd | .streamEnd =>
        some <$> empty
      | _ => some <$> node true false fuel
    | _ => some <$> node true false fuel
  if root.isSome then skipDocumentEnds fuel
  expect .streamEnd
  return root

end Compose

/-- The nodes of a text and the number of the outermost. `room` is how many levels of collections may
lie in each other. -/
def compose (room : Nat) (t : Text) : Except Problem (Array Node × Option Nat) :=
  let (ts, problem) := tokens t
  let start : Composer := ⟨ts, problem.getD .malformed, Compose.standardHandles, #[], [], room⟩
  ((Compose.document (3 * ts.length + 10)).run start).map fun (root, s) => (s.nodes, root)

end Longform.Yaml
