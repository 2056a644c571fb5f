import Longform.Calendar
import Longform.Value.Basic

/-! Why a compilation or one of its stages fails. -/
namespace Longform

inductive Fault
  /-- Front matter that cannot be read. -/
  | metadataMalformed
  /-- Front matter that is no mapping, with the kind it has. -/
  | metadataKind (found : Text)
  /-- A chart block that cannot be read. -/
  | chartMalformed
  /-- A chart block that is no mapping, with the kind it has. -/
  | chartKind (found : Text)
  /-- A network block without definitions and connections. -/
  | networkEmpty
  /-- A command-line attribute without a key or a value. -/
  | attributeForm (found : Text)
  /-- A text that is no whole number in a base. -/
  | integer (literal : Text) (base : Nat)
  /-- A whole number of more figures than are read, with how many there are. -/
  | longLiteral (figures : Nat)
  /-- A whole number of more figures than are written. -/
  | longNumber
  /-- A text that is no number. -/
  | float (literal : Text)
  /-- An escape for a character that does not exist. -/
  | codePoint
  /-- Halves of pairs in an address, where they would have to be bytes. -/
  | encoding
  | calendar (cause : Calendar.Fault)
  /-- A collection that holds itself, where a finite text is asked for. -/
  | circular
  /-- A number that is no number, where a whole one is asked for. -/
  | notANumber
  /-- A number beyond those that are represented. -/
  | infinite
  /-- A key that has no text of its own. -/
  | keyKind
  | divisionByZero
  /-- A look-up outside a table of words. -/
  | unknownWord
  /-- A value that does not have the form its tag asks for. -/
  | missingForm
  /-- A list position that does not exist. -/
  | position
  /-- A descent into collections that is deeper than there is room for; one into a collection that holds
  itself has no end. -/
  | descent
  /-- Values of kinds that have no order between them. -/
  | incomparable
  /-- A collection where a text is asked for. -/
  | collection
  /-- Markup with a marked section of an unknown kind. -/
  | markup
deriving DecidableEq, Repr

end Longform
