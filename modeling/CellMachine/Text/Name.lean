import CellMachine.Text.Basic

/-! # Names and words

A *name* is what a script calls its variables, its routine and its computer by: an ASCII letter or
an underscore, then letters, digits and underscores. A *word* is what may stand as an operand: a
non-empty run of such characters, the first of which may be a digit, behind an optional minus.

* `isName`, `isWord`: the two shapes.
* `binding?`: the name and the right side of `name = right side`. -/

namespace CellMachine.Text

/-- The characters that may open a name. -/
def isNameStart (c : Char) : Bool := c.isAlpha || c == '_'

/-- The characters that may stand in a name. -/
def isNameChar (c : Char) : Bool := c.isAlphanum || c == '_'

/-- **Names.** -/
def isName : Text → Bool
  | [] => false
  | c :: t => isNameStart c && t.all isNameChar

/-- **Operand words.** -/
def isWord (t : Text) : Bool :=
  let body := (['-'].isPrefixOf? t).getD t
  !body.isEmpty && body.all isNameChar

/-- **Bindings.** In `name = right side`, the name and the right side. Blanks may surround the
equals sign, and the text is expected to be trimmed. -/
def binding? (t : Text) : Option (Text × Text) :=
  let name := t.takeWhile isNameChar
  if isName name then
    (['='].isPrefixOf? (trimStart (t.dropWhile isNameChar))).map fun right =>
      (name, trimStart right)
  else none

end CellMachine.Text
