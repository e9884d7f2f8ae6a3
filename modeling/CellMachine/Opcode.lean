import CellMachine.Text.Basic

/-! # Operation codes

The machine knows six operations. Each has a code, a mnemonic, and a fixed answer to the question
whether an instruction with it carries an argument.

* `Opcode`: the operations, with `code` and `mnemonic`.
* `Opcode.takesArgument`: the operations whose instructions carry an argument.
* `Opcode.ofMnemonic?`: the operation with a given mnemonic; capitals and spelling count. -/

namespace CellMachine

/-- **The six operations.** -/
inductive Opcode where
  /-- Replace the two topmost values by their product. -/
  | mult
  /-- Continue at the address in the argument. -/
  | call
  /-- Continue at the address on top of the values. -/
  | ret
  | stop
  /-- Take the topmost value and print it. -/
  | print
  /-- Put the argument on top of the values. -/
  | push
deriving DecidableEq, Repr

namespace Opcode

/-- Every operation, in the order of their codes. -/
def all : List Opcode := [mult, call, ret, stop, print, push]

/-- The numeric code of an operation. -/
def code : Opcode → Nat
  | mult => 1
  | call => 2
  | ret => 3
  | stop => 4
  | print => 5
  | push => 6

/-- The name of an operation in programs and messages. -/
def mnemonic : Opcode → Text
  | mult => "MULT".toList
  | call => "CALL".toList
  | ret => "RET".toList
  | stop => "STOP".toList
  | print => "PRINT".toList
  | push => "PUSH".toList

/-- Whether an instruction with this operation carries an argument. -/
def takesArgument : Opcode → Bool
  | call | push => true
  | mult | ret | stop | print => false

/-- The operation with the mnemonic `t`, exactly as spelt. -/
def ofMnemonic? (t : Text) : Option Opcode := all.find? fun op => op.mnemonic == t

/-- What is said of a text that is no mnemonic. -/
def unknownMessage (t : Text) : Text := "unknown instruction '".toList ++ t ++ "'".toList

theorem mem_all (op : Opcode) : op ∈ all := by cases op <;> decide

/-- **Mnemonics read back.** -/
theorem ofMnemonic?_mnemonic (op : Opcode) : ofMnemonic? op.mnemonic = some op := by
  cases op <;> decide

/-- Only mnemonics are read. -/
theorem mnemonic_of_ofMnemonic? {t : Text} {op : Opcode} (h : ofMnemonic? t = some op) :
    op.mnemonic = t := by
  have := List.find?_some h
  simpa using this

end Opcode

end CellMachine
