import CellMachine.Computer.Run

/-! # Programs

A program is a list of operations with their arguments. It is loaded from address zero on into a
fresh computer and run from there.

* `Program.load`: write the instructions one after another.
* `Program.run`: load and run, with the payload, the printed values and the last program counter
  as the result. -/

namespace CellMachine

/-- **Programs.** -/
abbrev Program := List (Opcode × Option Word)

namespace Program

/-- **What a completed run gives.** -/
structure Summary where
  payload : Option Word
  printed : Array Word
  pc : Nat
deriving DecidableEq, Repr

/-- Write the instructions one after another, up to the first that fails. -/
def load (c : Computer) : Program → Except Fault Computer
  | [] => .ok c
  | (op, argument) :: program =>
    match c.insertOp op argument with
    | .error fault => .error fault
    | .ok c' => load c' program

/-- Run a loaded computer from address zero. -/
def start (limit : Nat) (c : Computer) : Except Abort (Except Fault Summary) :=
  match c.setAddress 0 with
  | .error fault => .ok (.error fault)
  | .ok c =>
    let outcome := c.execute limit
    match outcome.ending with
    | .finished payload => .ok (.ok ⟨payload, outcome.printed, outcome.computer.pc⟩)
    | .failed fault => .ok (.error fault)
    | .unfinished => .error .outOfCycles

/-- **Load and run** on a fresh computer of the requested size. -/
def run (limit : Nat) (size : Word) (program : Program) :
    Except Abort (Except Fault Summary) :=
  match Computer.ofSize size with
  | .error abort => .error abort
  | .ok c =>
    match load c program with
    | .error fault => .ok (.error fault)
    | .ok c => start limit c

end Program

end CellMachine
