import CellMachine.Script.Routine
import CellMachine.Text.Decimal
import CellMachine.Text.Name
import CellMachine.Word

/-! # Lines of a script

Every line means exactly one thing, and what it means depends on the routine of the moment only.
The tests are made in a fixed order: the end of the session, lines without meaning, capture, and
then assignments, definitions and calls.

* `Line`: the meanings.
* `assignment?`, `opening?`: the two shapes that carry a name.
* `Line.classify`: the meaning of a line. -/

namespace CellMachine

/-- **What a line means.** -/
inductive Line where
  | exit
  /-- A blank line or a comment. -/
  | ignored
  /-- The definition of the open routine is complete. -/
  | closing
  | body
  | assignment (name : Text) (value : Word)
  | opening (name : Text)
  | call
  | unrecognized
deriving DecidableEq, Repr

namespace Line

/-- The name and the number in `name = digits`; the text is expected to be trimmed. -/
def assignment? (t : Text) : Option (Text × Nat) :=
  (Text.binding? t).bind fun (name, right) =>
    (Text.toNat? right).map fun value => (name, value)

/-- The name in `def name`; the text is expected to be trimmed. -/
def opening? (t : Text) : Option Text :=
  ("def".toList.isPrefixOf? t).bind fun rest =>
    let name := Text.trimStart rest
    if rest.head?.any Text.isBlank && Text.isName name then some name else none

/-- Whether a trimmed text is a comment. -/
def isComment (t : Text) : Bool := t.head? == some '#'

/-- Whether a routine is being defined. -/
def capturing (routine : Option Routine) : Bool := routine.any Routine.isOpen

/-- The meaning of a trimmed text outside of definitions. A number that no word can hold makes an
assignment meaningless. -/
def statement (routine : Option Routine) (t : Text) : Line :=
  match assignment? t with
  | some (name, value) => (Word.ofInt? value).elim unrecognized (assignment name)
  | none =>
    match opening? t with
    | some name => opening name
    | none => if routine.any (·.isCalledBy t) then call else unrecognized

/-- **The meaning of a line,** given the routine of the moment. -/
def classify (routine : Option Routine) (line : Text) : Line :=
  let t := Text.trim line
  if t = "exit()".toList then exit
  else if t = [] ∨ isComment t then ignored
  else if capturing routine then
    if t = "end".toList then closing else body
  else statement routine t

end Line

end CellMachine
