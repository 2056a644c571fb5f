import Std.Data.HashMap
import Longform.Html.EntityTable
import Longform.Text.Basic

/-! Character references by name. -/
namespace Longform.Html

structure Entity where
  text : Text
  /-- Whether the name also stands without a semicolon behind it. -/
  bare : Bool
deriving DecidableEq, Repr

def hexValue (t : Text) : Nat :=
  t.foldl (fun n c => 16 * n + (if c.isDigit then c.toNat - 48 else c.toLower.toNat - 87)) 0

/-- Name and characters of one row of the table. -/
def readRow (row : Text) : Option (String × Entity) :=
  let isName (c : Char) : Bool := c ≠ ':' && c ≠ '!'
  match row.dropWhile isName with
  | mark :: codes => some (String.ofList (row.takeWhile isName),
      ⟨(Text.splitAt '+' codes).map fun h => Char.ofNat (hexValue h), mark = '!'⟩)
  | [] => none

def entityRowsRead : List (String × Entity) :=
  (Text.splitAt ' ' (entityRows.toList.map fun c => if c = '\n' then ' ' else c)).filterMap readRow

def entityTable : Std.HashMap String Entity := Std.HashMap.ofList entityRowsRead

/-- The five names that markup cannot do without are known directly, all others by the table. -/
def entity? (name : Text) : Option Entity :=
  match name with
  | ['a', 'm', 'p'] => some ⟨['&'], true⟩
  | ['l', 't'] => some ⟨['<'], true⟩
  | ['g', 't'] => some ⟨['>'], true⟩
  | ['q', 'u', 'o', 't'] => some ⟨['"'], true⟩
  | ['a', 'p', 'o', 's'] => some ⟨['\''], false⟩
  | _ => entityTable[String.ofList name]?

end Longform.Html
