import Longform.Dictionary

/-! Connection lines of a network. References in parentheses name nodes and may carry attributes; an
arrow between two neighbouring references is an edge between their nodes. -/
namespace Longform.Network

/-- A node reference: what stands between its parentheses, the name as it is written. -/
structure Reference where
  name : Text
  suffix : Option Text
deriving DecidableEq, Repr

inductive Direction
  | forward
  | backward
deriving DecidableEq, Repr

/-- An edge along its arrow. -/
structure Edge where
  source : Text
  target : Text
  label : Option Text
  direction : Direction
deriving DecidableEq, Repr

/-- The reference that a text begins with, and the text after it. -/
def Reference.read? : Text → Option (Reference × Text)
  | '(' :: r =>
    let inName (c : Char) : Bool := c ≠ '|' && c ≠ ')'
    let name := r.takeWhile inName
    if name.isEmpty then none
    else match r.dropWhile inName with
      | ')' :: s => some (⟨name, none⟩, s)
      | '|' :: s => match s.dropWhile (· ≠ ')') with
        | ')' :: u => some (⟨name, some (s.takeWhile (· ≠ ')'))⟩, u)
        | _ => none
      | _ => none
  | _ => none

/-- The references of a line from left to right, each with the text that stands in front of it. -/
def referencesFrom : Nat → Text → Text → List (Text × Reference)
  | 0, _, _ => []
  | _, _, [] => []
  | fuel + 1, before, c :: r =>
    match Reference.read? (c :: r) with
    | some (x, s) => (before, x) :: referencesFrom fuel [] s
    | none => referencesFrom fuel (before ++ [c]) r

def references (line : Text) : List (Text × Reference) := referencesFrom line.length [] line

/-- Key and value of one attribute; both have to be there. -/
def attribute? (pair : Text) : Option (Text × Text) :=
  match Text.cutAt ':' pair with
  | none => none
  | some (k, v) =>
    let key := Text.trim k
    let value := Text.trim v
    if key.isEmpty || value.isEmpty then none else some (key, value)

/-- The attributes of a reference, separated by semicolons. -/
def Reference.attributes (x : Reference) : Dictionary Text :=
  match x.suffix with
  | none => []
  | some raw => Dictionary.ofEntries ((Text.splitAt ';' raw).filterMap attribute?)

/-- The attributes of one more reference merged into those of its node. -/
def addAttributes (found : Dictionary (Dictionary Text)) (x : Reference) :
    Dictionary (Dictionary Text) :=
  if x.attributes.isEmpty then found
  else found.alter (Text.trim x.name) fun old => Dictionary.merge (old.getD []) x.attributes

/-- The attributes of every node, later values winning. -/
def nodeAttributes (connections : List Text) : Dictionary (Dictionary Text) :=
  ((connections.flatMap references).map (·.2)).foldl addAttributes []

/-- An arrow: whether it points backward, and its label. -/
structure Arrow where
  backward : Bool
  label : Option Text
deriving DecidableEq, Repr

/-- The end of an arrow: at most a dash and at most a head. -/
def isArrowEnd (t : Text) : Bool :=
  t = [] || t = ['-'] || t = ['>'] || t = ['-', '>']

/-- Reads a trimmed operator: an optional head, a dash, an optional label in brackets, an optional
dash and an optional head. -/
def Arrow.read? (t : Text) : Option Arrow :=
  let backward := t.head? = some '<'
  match if backward then t.tail else t with
  | '-' :: '[' :: r =>
    match Text.cutAt ']' r with
    | some (label, s) => if label.isEmpty || !isArrowEnd s then none else some ⟨backward, some label⟩
    | none => none
  | '-' :: r => if isArrowEnd r then some ⟨backward, none⟩ else none
  | _ => none

/-- The edge that an arrow makes between the references on its sides. -/
def Arrow.edge (a : Arrow) (left right : Reference) : Edge :=
  let label := a.label.map Text.trim
  if a.backward then ⟨Text.trim right.name, Text.trim left.name, label, .backward⟩
  else ⟨Text.trim left.name, Text.trim right.name, label, .forward⟩

/-- The edges between neighbouring references. -/
def edgesBetween : List (Text × Reference) → List Edge
  | [] => []
  | [_] => []
  | (_, left) :: (between, right) :: r =>
    ((Arrow.read? (Text.trim between)).map fun a => a.edge left right).toList ++
      edgesBetween ((between, right) :: r)

/-- The edges of all lines, in reading order. -/
def edges (connections : List Text) : List Edge :=
  connections.flatMap fun line => edgesBetween (references line)

end Longform.Network
