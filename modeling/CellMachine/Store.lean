import CellMachine.Abort
import CellMachine.Cell
import CellMachine.Fault

/-! # The store

A store is a row of slots, each vacant or holding a cell. Its first `capacity` slots are there from
the start and stay; further slots come with what is pushed and go with what is popped. When nothing
pushed is left, a pop vacates the last of the first `capacity` slots instead of removing it.

* `Store.ofSize`: the fresh store of a requested size.
* `Store.insert`: overwrite a slot that exists. `Store.push`, `Store.pop`: the far end;
  `Store.pushValue`, `Store.popValue`: the same for bare values.
* `Store.peek`: read a slot; where there is none, there is nothing to read.
* `length_insert`, `length_push`, `length_pop`, `peek_insert`, `peek_push`: what the writes do to
  length and slots. `pop_push`: a pop takes back what was pushed. -/

namespace CellMachine

/-- **Stores.** The first `capacity` slots are addressable. -/
structure Store where
  /-- The number of addressable slots. -/
  capacity : Nat
  /-- All slots, the addressable ones first. -/
  slots : Array (Option Cell)
deriving DecidableEq, Repr

namespace Store

/-! ## Fresh stores -/

/-- The capacity of a store whose requested size is not positive. -/
def defaultCapacity : Nat := 100

/-- The bytes that one slot takes. -/
def slotBytes : Nat := 24

/-- The most bytes that a store can take. -/
def maxBytes : Nat := 0x7FFFFFFFFFFFFFFF

/-- The capacity for a requested size. -/
def capacityFor (size : Word) : Nat :=
  if 1 ≤ size.toInt then size.toInt.toNat else defaultCapacity

/-- The store with `capacity` vacant slots. -/
def vacant (capacity : Nat) : Store := ⟨capacity, Array.replicate capacity none⟩

/-- **The fresh store of a requested size.** It aborts when the slots do not fit in memory. -/
def ofSize (size : Word) : Except Abort Store :=
  if slotBytes * capacityFor size ≤ maxBytes then .ok (vacant (capacityFor size))
  else .error .storeTooLarge

/-! ## Reading -/

/-- The number of slots, pushed ones included. -/
def length (s : Store) : Nat := s.slots.size

/-- The cell at an index; nothing where the slot is vacant or missing. -/
def peek (s : Store) (index : Nat) : Option Cell := (s.slots[index]?).join

/-- Whether every slot is vacant. -/
def isEmpty (s : Store) : Bool := s.slots.all Option.isNone

/-- The occupied slots with their indices, in ascending order. -/
def occupied (s : Store) : List (Nat × Cell) :=
  s.slots.toList.zipIdx.filterMap fun (slot, index) => slot.map fun cell => (index, cell)

/-! ## Writing -/

/-- Overwrite the slot at an index below the length. -/
def insert (s : Store) (cell : Cell) (index : Nat) : Except Fault Store :=
  if index < s.length then .ok { s with slots := s.slots.setIfInBounds index (some cell) }
  else .error (.addressOutOfBounds index s.length)

/-- Append a slot that holds the cell. Only fresh stores are held against `maxBytes`; that memory
has one more slot for a push is taken for granted. -/
def push : Store → Cell → Store
  | ⟨capacity, slots⟩, cell => ⟨capacity, slots.push (some cell)⟩

/-- **Take the last cell.** A pushed slot goes with it; an addressable slot stays, vacated. -/
def pop : Store → Option Cell × Store
  | ⟨capacity, slots⟩ =>
    let cell := (slots.back?).join
    if capacity < slots.size then (cell, ⟨capacity, slots.pop⟩)
    else (cell, ⟨capacity, slots.setIfInBounds (slots.size - 1) none⟩)

/-- Push a bare value. -/
def pushValue (s : Store) (w : Word) : Store := s.push (.value w)

/-- Pop a cell, and take its value if it is bare. The cell is gone in either case. -/
def popValue (s : Store) : Option Word × Store :=
  let (cell, s') := s.pop
  (cell.bind Cell.value?, s')

/-! ## What the operations do to length and slots -/

@[simp]
theorem capacity_vacant (n : Nat) : (vacant n).capacity = n := rfl

@[simp]
theorem length_vacant (n : Nat) : (vacant n).length = n := by simp [vacant, length]

@[simp]
theorem peek_vacant (n index : Nat) : (vacant n).peek index = none := by
  simp only [vacant, peek, Array.getElem?_replicate]
  split <;> rfl

@[simp]
theorem capacity_push (s : Store) (cell : Cell) : (s.push cell).capacity = s.capacity := rfl

@[simp]
theorem length_push (s : Store) (cell : Cell) : (s.push cell).length = s.length + 1 := by
  simp [push, length]

theorem peek_push (s : Store) (cell : Cell) (index : Nat) :
    (s.push cell).peek index = if index = s.length then some cell else s.peek index := by
  simp only [push, peek, length, Array.getElem?_push]
  by_cases h : index = s.slots.size <;> simp [h]

@[simp]
theorem capacity_pop (s : Store) : s.pop.2.capacity = s.capacity := by
  simp only [pop]; split <;> rfl

theorem length_pop (s : Store) :
    s.pop.2.length = if s.capacity < s.length then s.length - 1 else s.length := by
  simp only [pop, length]; split <;> simp [*]

/-- **A pop takes back what was pushed,** and leaves the store as it was. -/
theorem pop_push {s : Store} (h : s.capacity ≤ s.length) (cell : Cell) :
    (s.push cell).pop = (some cell, s) := by
  have h' : s.capacity < s.slots.size + 1 := Nat.lt_succ_of_le h
  simp [push, pop, h']

theorem popValue_pushValue {s : Store} (h : s.capacity ≤ s.length) (w : Word) :
    (s.pushValue w).popValue = (some w, s) := by
  simp [pushValue, popValue, pop_push h, Cell.value?]

theorem peek_of_length_le {s : Store} {index : Nat} (h : s.length ≤ index) :
    s.peek index = none := by
  simp [peek, Array.getElem?_eq_none h]

theorem capacity_insert {s s' : Store} {cell : Cell} {index : Nat}
    (h : s.insert cell index = .ok s') : s'.capacity = s.capacity := by
  unfold insert at h; split at h <;> cases h; rfl

theorem length_insert {s s' : Store} {cell : Cell} {index : Nat}
    (h : s.insert cell index = .ok s') : s'.length = s.length := by
  unfold insert at h; split at h <;> cases h; simp [length]

theorem peek_insert {s s' : Store} {cell : Cell} {index : Nat}
    (h : s.insert cell index = .ok s') (i : Nat) :
    s'.peek i = if i = index then some cell else s.peek i := by
  unfold insert at h
  split at h <;> cases h
  rename_i hlt
  simp only [peek, Array.getElem?_setIfInBounds]
  by_cases hi : index = i
  · subst hi
    have : index < s.slots.size := hlt
    simp [this]
  · simp [hi, Ne.symm hi]

end Store

end CellMachine
