import CellMachine.Opcode
import CellMachine.Word

/-! # Faults

A fault is the cause for which the store or the computer refuses an operation. Faults are ordinary
results: a computer goes on after one, and a session reports its message and continues.

* `Fault`: the causes, each with what is needed to tell what went wrong and where.
* `Fault.message`: the one place with the wording. -/

namespace CellMachine

/-- **Causes of failure.** `pc` is the address of the instruction that failed. -/
inductive Fault where
  /-- A write at an index that the store of length `length` does not have. -/
  | addressOutOfBounds (index length : Nat)
  /-- The program counter was to be set to an address that is not below the size. -/
  | counterOutOfBounds (address : Word) (size : Nat)
  /-- An instruction that carries an argument was given none. -/
  | missingArgument (op : Opcode)
  /-- A text that is no mnemonic was given for an instruction. -/
  | unknownMnemonic (mnemonic : Text)
  /-- The run met a bare value where an instruction should be. -/
  | notAnInstruction (pc : Nat)
  /-- There is nothing to start the run with. -/
  | noInstruction (pc : Nat)
  /-- A multiplication did not find two values. -/
  | missingFactors (pc : Nat)
  /-- A call has no argument to continue at. -/
  | missingTarget (pc : Nat)
  /-- A call names an address that is not below the size. -/
  | callOutOfBounds (pc : Nat) (address : Word)
  /-- A return did not find a value. -/
  | missingReturn (pc : Nat)
  /-- A return found an address that is not below the size. -/
  | returnOutOfBounds (pc : Nat) (address : Word)
  /-- A print did not find a value. -/
  | missingOutput (pc : Nat)
deriving DecidableEq, Repr

namespace Fault

/-- **The wording of each fault.** -/
def message : Fault → Text
  | addressOutOfBounds index length =>
    "address ".toList ++ Text.ofNat index ++ " is out of bounds (store length ".toList ++
      Text.ofNat length ++ ")".toList
  | counterOutOfBounds address size =>
    "program counter ".toList ++ address.text ++ " is out of bounds (size ".toList ++
      Text.ofNat size ++ ")".toList
  | missingArgument op => op.mnemonic ++ " requires an argument".toList
  | unknownMnemonic mnemonic => "invalid instruction '".toList ++ mnemonic ++ "'".toList
  | notAnInstruction pc => "invalid instruction at address ".toList ++ Text.ofNat pc
  | noInstruction pc => "no instruction at address ".toList ++ Text.ofNat pc
  | missingFactors pc => "MULT needs two pushed values at address ".toList ++ Text.ofNat pc
  | missingTarget pc => "CALL without an address at address ".toList ++ Text.ofNat pc
  | callOutOfBounds pc address =>
    "CALL target ".toList ++ address.text ++ " is out of bounds at address ".toList ++
      Text.ofNat pc
  | missingReturn pc => "RET needs a pushed return address at address ".toList ++ Text.ofNat pc
  | returnOutOfBounds pc address =>
    "RET target ".toList ++ address.text ++ " is out of bounds at address ".toList ++
      Text.ofNat pc
  | missingOutput pc => "PRINT needs a pushed value at address ".toList ++ Text.ofNat pc

end Fault

end CellMachine
