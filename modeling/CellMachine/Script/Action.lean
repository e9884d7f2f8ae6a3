import CellMachine.Script.Operand
import CellMachine.Text.Name

/-! # Actions

An action is one thing that a line of a routine asks of the computer: to move the program counter,
to write an instruction, or to run. A line asks for several by a chain, `name.link.link`, where the
name is that of the computer and each link may spell out an action.

* `Action`, `Action.ofText?`: the actions, and the one that a text spells out, if it does.
* `links?`: the links of a chain. -/

namespace CellMachine

/-! ## Actions -/

/-- **Actions.** -/
inductive Action where
  | setAddress (operand : Operand)
  | insert (mnemonic : Text) (operand : Option Operand)
  | execute
deriving DecidableEq, Repr

namespace Action

/-- The action `set_address(operand)`, with the operand set off by any blanks. -/
def setAddress? (t : Text) : Option Action :=
  (Text.between? "set_address(".toList ")".toList t).bind fun inner =>
    let word := Text.trim inner
    if Text.isWord word then some (setAddress (Operand.ofText word)) else none

/-- What may follow the mnemonic of an insertion: nothing, or a comma and an operand. -/
def insertOperand? (t : Text) : Option (Option Operand) :=
  match Text.trimStart t with
  | [] => some none
  | ',' :: rest =>
    let word := Text.trimStart rest
    if Text.isWord word then some (some (Operand.ofText word)) else none
  | _ :: _ => none

/-- The actions `insert("mnemonic")` and `insert("mnemonic", operand)`, with any blanks around each
part. A mnemonic has letters and underscores only. -/
def insert? (t : Text) : Option Action :=
  (Text.between? "insert(".toList ")".toList t).bind fun inner =>
    (['"'].isPrefixOf? (Text.trim inner)).bind fun quoted =>
      let mnemonic := quoted.takeWhile Text.isNameStart
      if mnemonic.isEmpty then none
      else
        (['"'].isPrefixOf? (quoted.dropWhile Text.isNameStart)).bind fun rest =>
          (insertOperand? rest).map (insert mnemonic)

/-- The action `execute()`, with any blanks between the parentheses. -/
def execute? (t : Text) : Option Action :=
  (Text.between? "execute(".toList ")".toList t).bind fun inner =>
    if inner.all Text.isBlank then some execute else none

/-- **The action that a text spells out.** Blanks around the text do not count. -/
def ofText? (t : Text) : Option Action :=
  let t := Text.trim t
  setAddress? t <|> insert? t <|> execute? t

end Action

/-! ## Chains -/

/-- **The links of a chain.** A line addresses `name` when it is `name`, a dot and a rest; the rest
is cut at its dots. -/
def links? (name line : Text) : Option (List Text) :=
  ((name ++ ['.']).isPrefixOf? (Text.trimStart line)).map fun rest => rest.splitOn '.'

end CellMachine
