import CellMachine.Store

/-! # The layout of a store

A store keeps its addressable slots and what is pushed in one row. Here the two are taken apart: the
*region* is the list of the addressable slots, and the *stack* the list of the pushed cells, the last
one first. A store in which every pushed slot is occupied is nothing but its region and its stack
(`ofParts_region_stack`), and on such a store each operation is one on lists:

* a push puts its cell on the stack (`push_ofParts`);
* a pop takes the top of the stack (`pop_ofParts_cons`), or, when the stack is empty, vacates the
  last slot of the region (`pop_ofParts_nil`);
* reading below the capacity reads the region, and reading above it the stack
  (`peek_ofParts_of_lt`, `peek_ofParts_add`). -/

namespace CellMachine.Store

/-- The addressable slots. -/
def region (s : Store) : List (Option Cell) := s.slots.toList.take s.capacity

/-- The pushed cells, the last one first. -/
def stack (s : Store) : List Cell := ((s.slots.toList.drop s.capacity).filterMap id).reverse

/-- **The store with a given region and a given stack.** -/
def ofParts (region : List (Option Cell)) (stack : List Cell) : Store :=
  ⟨region.length, (region ++ stack.reverse.map some).toArray⟩

/-- The region with its last slot vacated. -/
def vacateLast (region : List (Option Cell)) : List (Option Cell) :=
  region.set (region.length - 1) none

/-- **Laid out stores.** The addressable slots are all there, and every slot beyond them is
occupied. -/
structure LaidOut (s : Store) : Prop where
  capacity_le : s.capacity ≤ s.length
  occupied : ∀ i, s.capacity ≤ i → i < s.length → ∃ cell, s.peek i = some cell

variable (region : List (Option Cell)) (stack : List Cell)

/-! ### Taking apart and putting together -/

@[simp]
theorem capacity_ofParts : (ofParts region stack).capacity = region.length := rfl

@[simp]
theorem length_ofParts : (ofParts region stack).length = region.length + stack.length := by
  simp [ofParts, length]

@[simp]
theorem stack_ofParts : (ofParts region stack).stack = stack := by
  simp [ofParts, Store.stack]

theorem map_some_filterMap_id {slots : List (Option Cell)}
    (h : ∀ slot ∈ slots, slot.isSome) : (slots.filterMap id).map some = slots := by
  induction slots with
  | nil => rfl
  | cons slot slots ih =>
    obtain ⟨cell, rfl⟩ := Option.isSome_iff_exists.mp (h slot (by simp))
    have htail := ih fun slot' hslot' => h slot' (by simp [hslot'])
    have hcons : (some cell :: slots).filterMap id = cell :: slots.filterMap id := rfl
    rw [hcons, List.map_cons, htail]

theorem length_region {s : Store} (h : s.capacity ≤ s.length) : s.region.length = s.capacity := by
  rw [Store.region, List.length_take, Array.length_toList]
  exact Nat.min_eq_left h

theorem ofParts_region_stack {s : Store} (h : s.LaidOut) : ofParts s.region s.stack = s := by
  have htail : ∀ slot ∈ s.slots.toList.drop s.capacity, slot.isSome := by
    intro slot hslot
    obtain ⟨j, hj, rfl⟩ := List.getElem_of_mem hslot
    rw [List.length_drop, Array.length_toList] at hj
    obtain ⟨cell, hcell⟩ := h.occupied (s.capacity + j) (by omega) (by unfold length; omega)
    have hlt : s.capacity + j < s.slots.size := by omega
    rw [peek, Array.getElem?_eq_getElem hlt, Option.join_some] at hcell
    simp [hcell]
  have hslots : s.region ++ s.stack.reverse.map some = s.slots.toList := by
    rw [Store.stack, List.reverse_reverse, map_some_filterMap_id htail]
    exact List.take_append_drop _ _
  rcases s with ⟨capacity, slots⟩
  rw [ofParts, hslots, length_region h.capacity_le]

/-! ### Reading -/

theorem peek_ofParts_of_lt {i : Nat} (h : i < region.length) :
    (ofParts region stack).peek i = (region[i]?).join := by
  simp [ofParts, peek, List.getElem?_append_left h]

theorem peek_ofParts_add (j : Nat) :
    (ofParts region stack).peek (region.length + j) = stack.reverse[j]? := by
  simp only [ofParts, peek, List.getElem?_toArray]
  rw [List.getElem?_append_right (Nat.le_add_right _ _), Nat.add_sub_cancel_left, List.getElem?_map]
  cases stack.reverse[j]? <;> rfl

theorem peek_eq_some_iff {s : Store} {i : Nat} {cell : Cell} :
    s.peek i = some cell ↔ s.slots.toList[i]? = some (some cell) := by
  rw [peek, Option.join_eq_some_iff, Array.getElem?_toList]

theorem mem_region {s : Store} {cell : Cell} :
    some cell ∈ s.region ↔ ∃ i < s.capacity, s.peek i = some cell := by
  simp only [peek_eq_some_iff, Store.region, List.mem_iff_getElem?, List.getElem?_take]
  constructor
  · rintro ⟨i, hi⟩
    split at hi
    · exact ⟨i, by assumption, hi⟩
    · cases hi
  · rintro ⟨i, hlt, hi⟩
    exact ⟨i, by rw [if_pos hlt, hi]⟩

theorem mem_stack {s : Store} {cell : Cell} :
    cell ∈ s.stack ↔ ∃ i, s.capacity ≤ i ∧ s.peek i = some cell := by
  rw [Store.stack, List.mem_reverse, List.mem_filterMap]
  simp only [id_eq, exists_eq_right, peek_eq_some_iff, List.mem_iff_getElem?, List.getElem?_drop]
  constructor
  · rintro ⟨j, hj⟩
    exact ⟨s.capacity + j, Nat.le_add_right _ _, hj⟩
  · rintro ⟨i, hle, hi⟩
    obtain ⟨j, rfl⟩ := Nat.exists_eq_add_of_le hle
    exact ⟨j, hi⟩

theorem stack_congr {s s' : Store} (hcapacity : s'.capacity = s.capacity)
    (hlength : s'.length = s.length) (hpeek : ∀ i, s.capacity ≤ i → s'.peek i = s.peek i) :
    s'.stack = s.stack := by
  rcases s with ⟨capacity, slots⟩
  rcases s' with ⟨capacity', slots'⟩
  subst hcapacity
  have hslots : slots'.toList.drop capacity' = slots.toList.drop capacity' := by
    refine List.ext_getElem ?_ fun j hj hj' => ?_
    · rw [List.length_drop, List.length_drop, Array.length_toList, Array.length_toList]
      exact congrArg (· - capacity') hlength
    · have hslot := hpeek (capacity' + j) (Nat.le_add_right _ _)
      rw [List.length_drop, Array.length_toList] at hj hj'
      have hlt : capacity' + j < slots.size := by omega
      have hlt' : capacity' + j < slots'.size := by omega
      rw [peek, peek, Array.getElem?_eq_getElem hlt, Array.getElem?_eq_getElem hlt',
        Option.join_some, Option.join_some] at hslot
      simpa using hslot
  rw [Store.stack, Store.stack, hslots]

theorem laidOut_ofParts : (ofParts region stack).LaidOut where
  capacity_le := by simp
  occupied i hle hlt := by
    simp only [capacity_ofParts, length_ofParts] at hle hlt
    obtain ⟨j, rfl⟩ := Nat.exists_eq_add_of_le hle
    rw [peek_ofParts_add]
    have hj : j < stack.reverse.length := by rw [List.length_reverse]; omega
    exact ⟨_, List.getElem?_eq_getElem hj⟩

/-! ### Pushing and popping -/

theorem push_ofParts (cell : Cell) :
    (ofParts region stack).push cell = ofParts region (cell :: stack) := by
  simp [ofParts, push]

theorem pushValue_ofParts (w : Word) :
    (ofParts region stack).pushValue w = ofParts region (.value w :: stack) :=
  push_ofParts region stack _

theorem pop_ofParts_cons (cell : Cell) :
    (ofParts region (cell :: stack)).pop = (some cell, ofParts region stack) := by
  rw [← push_ofParts, pop_push (laidOut_ofParts region stack).capacity_le]

theorem pop_ofParts_nil :
    (ofParts region []).pop = ((region.getLast?).join, ofParts (vacateLast region) []) := by
  simp [ofParts, pop, vacateLast]

/-- A pop takes the top of the stack, whether it is a value or not. -/
theorem popValue_ofParts_cons (cell : Cell) :
    (ofParts region (cell :: stack)).popValue = (cell.value?, ofParts region stack) := by
  simp [popValue, pop_ofParts_cons]

/-- **A pop from an empty stack reaches into the region.** It vacates the last slot there. -/
theorem popValue_ofParts_nil :
    (ofParts region []).popValue =
      ((region.getLast?).join.bind Cell.value?, ofParts (vacateLast region) []) := by
  simp [popValue, pop_ofParts_nil]

end CellMachine.Store
