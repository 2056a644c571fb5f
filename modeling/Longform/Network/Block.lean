import Longform.Fault
import Longform.Network.Connection
import Longform.Text.Escape
import Longform.Text.Letter

/-! Network blocks: settings, the definitions of nodes and edges, and connection lines, in sections
that `---` lines separate; and the markup they are shown as. -/
namespace Longform.Network

/-- A defined node or edge with the lines that describe it. -/
structure Item where
  name : Text
  content : Text
deriving DecidableEq, Repr

structure Block where
  settings : Dictionary Text
  items : List Item
  connections : List Text
deriving DecidableEq, Repr

/-- Names that hold the word edge are edges, all others are nodes. -/
def Item.isEdge (x : Item) : Bool := Text.contains "edge".toList (x.name.map Char.toLower)

/-- Level and text of a trimmed heading line: at most six number signs, of which the last is the
text when nothing else follows. -/
def heading? (line : Text) : Option (Nat × Text) :=
  let marks := ((line.takeWhile (· = '#')).take 6).length
  match (line.drop marks).dropWhile Text.isBlank with
  | [] => if marks < 2 then none else some (marks - 1, ['#'])
  | body => some (marks, body)

def headingMarkup (level : Nat) (text : Text) : Text :=
  "<h".toList ++ Text.ofNat level ++ '>' :: Text.escapeContent text ++
    "</h".toList ++ Text.ofNat level ++ ['>']

def paragraphMarkup (ls : List Text) : List Text :=
  if ls.isEmpty then []
  else ["<p>".toList ++ Text.escapeContent (Text.join [' '] ls) ++ "</p>".toList]

/-- Headings and paragraphs of a description; `paragraph` holds the lines of the paragraph at hand. -/
def describeFrom (paragraph : List Text) : List Text → List Text
  | [] => paragraphMarkup paragraph
  | l :: ls =>
    let line := Text.trim l
    if line.head? = some '#' then
      paragraphMarkup paragraph ++
        ((heading? line).map fun (n, t) => headingMarkup n t).toList ++ describeFrom [] ls
    else if line.isEmpty then paragraphMarkup paragraph ++ describeFrom [] ls
    else describeFrom (paragraph ++ [line]) ls

/-- The markup of a description: number signs make headings, other lines paragraphs. -/
def describe (content : Text) : Text := Text.joinLines (describeFrom [] (Text.lines content))

def Item.rendered (x : Item) : Text := describe x.content

inductive Section
  | start
  | settings
  | definitions
  | connections
deriving DecidableEq, Repr

/-- A reader of block lines: the section, the block so far, and the item that is still open. -/
structure Reader where
  part : Section
  block : Block
  name : Text
  lines : List Text

def isDelimiter (line : Text) : Bool := Text.trim line = "---".toList

/-- The section after a delimiter; none in the last section, where it is a connection line. -/
def Section.next? : Section → Option Section
  | .start => some .settings
  | .settings => some .definitions
  | .definitions => some .connections
  | .connections => none

/-- Key and value of a trimmed settings line. -/
def setting? (line : Text) : Option (Text × Text) :=
  let isKey (c : Char) : Bool := Text.isWord c || c = '-'
  let key := line.takeWhile isKey
  match line.dropWhile isKey with
  | ':' :: r =>
    let value := Text.trim r
    if key.isEmpty || value.isEmpty then none else some (key, value)
  | _ => none

/-- The block with the open item added; an item without a name is dropped. -/
def Reader.save (r : Reader) : Block :=
  if r.name.isEmpty then r.block
  else { r.block with items := r.block.items ++ [⟨r.name, Text.joinLines r.lines⟩] }

/-- The text without its first colon. -/
def dropColon (t : Text) : Text :=
  match Text.cutAt ':' t with
  | some (a, b) => a ++ b
  | none => t

def Reader.readDefinition (r : Reader) (line : Text) : Reader :=
  match line with
  | [] => r
  | c :: rest =>
    if !Text.isBlank c then
      { r with block := r.save, name := Text.trim (dropColon line), lines := [] }
    else if Text.allBlank line then r
    else { r with lines := r.lines ++ [if c = '\t' then rest else line] }

def Reader.readLine (r : Reader) (line : Text) : Reader :=
  match r.part with
  | .start => r
  | .settings => match setting? (Text.trim line) with
    | some (k, v) => { r with block := { r.block with settings := r.block.settings.set k v } }
    | none => r
  | .definitions => r.readDefinition line
  | .connections =>
    if Text.allBlank line then r
    else { r with block :=
      { r.block with connections := r.block.connections ++ [Text.trim line] } }

def Reader.step (r : Reader) (line : Text) : Reader :=
  match if isDelimiter line then r.part.next? else none with
  | some s => { r with part := s }
  | none => r.readLine line

/-- A block that begins with a delimiter has settings, any other starts with its definitions. -/
def firstSection (ls : List Text) : Section :=
  match ls.find? fun l => !Text.allBlank l with
  | some l => if isDelimiter l then .start else .definitions
  | none => .definitions

/-- Reads a block; it has to define or connect something. -/
def Block.read (source : Text) : Except Fault Block :=
  let ls := Text.lines source
  let block := (ls.foldl Reader.step ⟨firstSection ls, ⟨[], [], []⟩, [], []⟩).save
  if block.items.isEmpty && block.connections.isEmpty then .error .networkEmpty else .ok block

def attributeMarkup (key value : Text) : Text :=
  ' ' :: key ++ '=' :: '"' :: Text.escapeAttribute value ++ ['"']

def attributesMarkup (d : Dictionary Text) : Text := d.flatMap fun (k, v) => attributeMarkup k v

def nodeMarkup (attributes : Dictionary (Dictionary Text)) (n : Nat) (x : Item) : List Text :=
  let own := (attributes.find? x.name).getD []
  ["<network-node id=\"".toList ++ Text.ofNat n ++ '"' :: attributeMarkup "name".toList x.name ++
      attributesMarkup own ++ ['>']] ++
    (if x.rendered.isEmpty then [] else [x.rendered]) ++ ["</network-node>".toList]

def edgeItemMarkup (x : Item) : List Text :=
  ["<network-edge".toList ++ attributeMarkup "name".toList x.name ++ ['>']] ++
    (if x.rendered.isEmpty then [] else [x.rendered]) ++ ["</network-edge>".toList]

def edgeMarkup (e : Edge) : Text :=
  let label := e.label.getD []
  "<network-edge".toList ++ attributeMarkup "source".toList e.source ++
    attributeMarkup "target".toList e.target ++
    (if label.isEmpty then [] else attributeMarkup "label".toList label) ++ "></network-edge>".toList

def Block.nodes (b : Block) : List Item := b.items.filter fun x => !x.isEdge
def Block.edgeItems (b : Block) : List Item := b.items.filter Item.isEdge

/-- The markup of a block: its nodes, its described edges and its connections, a line each. -/
def Block.markup (b : Block) : Text :=
  let attributes := nodeAttributes b.connections
  Text.joinLines (
    ["<network-visualization".toList ++ attributesMarkup b.settings ++ ['>']] ++
    (b.nodes.zipIdx.flatMap fun (x, n) => nodeMarkup attributes n x) ++
    b.edgeItems.flatMap edgeItemMarkup ++
    (edges b.connections).map edgeMarkup ++
    ["</network-visualization>".toList]) ++ ['\n']

end Longform.Network
