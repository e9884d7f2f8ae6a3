import CellMachine.Text.Basic

/-! # Texts as bytes

Files and standard input are bytes, which may or may not be the UTF-8 form of a text. Standard input
comes in lines: a line ends with a newline, which it loses together with one carriage return before
it. What follows the last newline is a line of its own, unless it is empty, and keeps every
character.

* `Bytes`, `ofBytes?`: the text with a given UTF-8 form.
* `inputLines`: the lines of an input, each a text or unreadable. -/

namespace CellMachine

/-- A file or an input is its list of bytes. -/
abbrev Bytes := List UInt8

namespace Text

/-- **The text with a given UTF-8 form,** if there is one. -/
def ofBytes? (bytes : Bytes) : Option Text :=
  (ByteArray.utf8Decode? bytes.toByteArray).map Array.toList

/-- The UTF-8 form of a text. -/
def toBytes (t : Text) : Bytes := t.flatMap String.utf8EncodeChar

/-- **The lines of an input.** A line that is no UTF-8 form is `none`. -/
def inputLines (bytes : Bytes) : List (Option Text) :=
  let pieces := bytes.splitOn 10
  (pieces.dropLast.map fun piece => (ofBytes? piece).map (without ['\r'])) ++
    (pieces.getLast?.toList.filter fun piece => !piece.isEmpty).map ofBytes?

/-- **UTF-8 forms read back.** -/
theorem ofBytes?_toBytes (t : Text) : ofBytes? (toBytes t) = some t := by
  have h : (toBytes t).toByteArray = t.utf8Encode := rfl
  rw [ofBytes?, h, List.utf8Decode?_utf8Encode]
  rfl

end Text

end CellMachine
