import CellMachine.Opcode
import CellMachine.Word

/-! # Cells

A cell is what a slot of the store may hold: an instruction, or a bare value. Both come with or
without an argument, and the store takes them as they are; that a computer only ever writes
instructions with the arguments they need is a property of the computer, not of cells.

* `Cell`: instructions and bare values.
* `Cell.value?`: the value of a bare cell that has one.
* `Cell.text`: how a cell is shown. -/

namespace CellMachine

/-- **Cells.** -/
inductive Cell where
  /-- An instruction, with the argument written beside its operation. -/
  | instruction (op : Opcode) (argument : Option Word)
  /-- A bare value, no instruction. -/
  | bare (argument : Option Word)
deriving DecidableEq, Repr

namespace Cell

/-- The bare cell with the value `w`. -/
abbrev value (w : Word) : Cell := bare (some w)

/-- The operation of an instruction. -/
def opcode? : Cell → Option Opcode
  | instruction op _ => some op
  | bare _ => none

/-- The argument of a cell of either kind. -/
def argument? : Cell → Option Word
  | instruction _ argument => argument
  | bare argument => argument

/-- Whether a cell is bare. -/
def isBare : Cell → Bool
  | instruction _ _ => false
  | bare _ => true

/-- The value of a bare cell. An instruction has none, whatever its argument. -/
def value? : Cell → Option Word
  | instruction _ _ => none
  | bare argument => argument

/-- **How a cell is shown:** its operation and its argument, whichever it has, and a dash when it
has neither. -/
def text : Cell → Text
  | instruction op (some w) => op.mnemonic ++ ' ' :: w.text
  | instruction op none => op.mnemonic
  | bare (some w) => w.text
  | bare none => ['-']

end Cell

end CellMachine
