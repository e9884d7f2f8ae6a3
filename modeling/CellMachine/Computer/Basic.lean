import CellMachine.Store

/-! # The computer

A computer is a store with a program counter. The addressable slots of the store hold its program,
and the slots beyond them the values it works on.

* `Computer.ofSize`: a fresh computer.
* `Computer.setAddress`: move the program counter to an address.
* `Computer.insertOp`, `Computer.insert`: write an instruction where the program counter stands and
  move on to the next slot.

An operation that fails has no new computer as its result, so nothing has changed. -/

namespace CellMachine

/-- **Computers.** -/
structure Computer where
  /-- Program and values. -/
  store : Store
  pc : Nat
deriving DecidableEq, Repr

namespace Computer

/-- The fresh computer of a requested size, at address zero. -/
def ofSize (size : Word) : Except Abort Computer :=
  (Store.ofSize size).map fun store => ⟨store, 0⟩

/-- The number of addressable slots. -/
def size (c : Computer) : Nat := c.store.capacity

/-- The address below the size that a word denotes. -/
def address? (c : Computer) (w : Word) : Option Nat := w.index? c.size

/-- **Set the program counter** to an address below the size. -/
def setAddress (c : Computer) (address : Word) : Except Fault Computer :=
  match c.address? address with
  | some pc => .ok { c with pc }
  | none => .error (.counterOutOfBounds address c.size)

/-- The instruction for an operation: it keeps the argument if the operation takes one, drops it
if not, and cannot do without it if so. -/
def encode (op : Opcode) (argument : Option Word) : Except Fault Cell :=
  if op.takesArgument then
    match argument with
    | some w => .ok (.instruction op (some w))
    | none => .error (.missingArgument op)
  else .ok (.instruction op none)

/-- **Write an instruction** at the program counter and advance. -/
def insertOp : Computer → Opcode → Option Word → Except Fault Computer
  | ⟨store, pc⟩, op, argument =>
    match encode op argument with
    | .error fault => .error fault
    | .ok cell => (store.insert cell pc).map fun store' => ⟨store', pc + 1⟩

/-- Write the instruction with a given mnemonic. -/
def insert (c : Computer) (mnemonic : Text) (argument : Option Word) : Except Fault Computer :=
  match Opcode.ofMnemonic? mnemonic with
  | some op => c.insertOp op argument
  | none => .error (.unknownMnemonic mnemonic)

end Computer

end CellMachine
