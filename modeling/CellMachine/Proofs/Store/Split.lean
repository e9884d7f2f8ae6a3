import CellMachine.Proofs.Store.Layout
import Mathlib.Algebra.Ring.Nat
import Mathlib.Data.List.Basic

/-! # Stores in two parts

The addressable slots of a store and the cells pushed behind them share one row of slots. A *split
store* has them apart, as a list of slots that keeps its length and a list of cells that is used at
its end only, and its operations are defined on these lists. Whatever is done to a fresh store and to
a fresh split store, nobody can tell the two by their answers or by looking at them.

* `SplitStore` and its operations; `SplitStore.store`: the store that a split store describes.
* `Store.Write`, `Store.Answer`, `Store.carryOut`: the operations that write, what they answer, and
  lists of them.
* `push_store`, `pop_store`, `insert_store`: each operation goes along with the description, and so
  do lists of them (`carryOut_store`).
* `looksLike_store`: a split store and the store it describes look alike.
* `carryOut_push_pop`: as many pops as pushes give the cells back, the last one first.
* `store_is_region_and_pushes`: all of this for the stores that come from a fresh one. -/

namespace CellMachine

/-- **Split stores.** The addressable slots, and the pushed cells in the order in which they came. -/
structure SplitStore where
  region : List (Option Cell)
  pushed : List Cell
deriving DecidableEq, Repr

namespace SplitStore

/-- The split store with `n` vacant addressable slots. -/
def vacant (n : Nat) : SplitStore := ⟨List.replicate n none, []⟩

def capacity (p : SplitStore) : Nat := p.region.length

def length (p : SplitStore) : Nat := p.region.length + p.pushed.length

def isEmpty (p : SplitStore) : Bool := p.region.all Option.isNone && p.pushed.isEmpty

/-- The cell at an index, which counts through the addressable slots and then the pushed cells. -/
def peek (p : SplitStore) (index : Nat) : Option Cell :=
  if index < p.capacity then (p.region[index]?).join else p.pushed[index - p.capacity]?

/-- Overwrite an addressable slot or a pushed cell. -/
def insert (p : SplitStore) (cell : Cell) (index : Nat) : Except Fault SplitStore :=
  if index < p.capacity then .ok { p with region := p.region.set index (some cell) }
  else if index < p.length then
    .ok { p with pushed := p.pushed.set (index - p.capacity) cell }
  else .error (.addressOutOfBounds index p.length)

def push (p : SplitStore) (cell : Cell) : SplitStore := { p with pushed := p.pushed ++ [cell] }

/-- Take the last pushed cell, and when there is none, what the last addressable slot holds. -/
def pop (p : SplitStore) : Option Cell × SplitStore :=
  match p.pushed.getLast? with
  | some cell => (some cell, { p with pushed := p.pushed.dropLast })
  | none => ((p.region.getLast?).join, { p with region := p.region.set (p.capacity - 1) none })

/-- **The store that a split store describes.** -/
def store (p : SplitStore) : Store := Store.ofParts p.region p.pushed.reverse

end SplitStore

/-! ## Writes -/

namespace Store

/-- **The operations that write to a store.** -/
inductive Write where
  | insert (cell : Cell) (index : Nat)
  | push (cell : Cell)
  | pop
deriving DecidableEq, Repr

/-- **What a write answers.** -/
inductive Answer where
  | done
  | refused (fault : Fault)
  /-- The cell that was popped, if there was one. -/
  | taken (cell : Option Cell)
deriving DecidableEq, Repr

/-- One write to a store. One that is refused leaves it as it was. -/
def write (s : Store) : Write → Answer × Store
  | .insert cell index =>
    match s.insert cell index with
    | .ok s' => (.done, s')
    | .error fault => (.refused fault, s)
  | .push cell => (.done, s.push cell)
  | .pop => (.taken s.pop.1, s.pop.2)

/-- **Writes one after another:** all answers, and what is left. -/
def carryOut {σ : Type} (write : σ → Write → Answer × σ) (s : σ) : List Write → List Answer × σ
  | [] => ([], s)
  | w :: writes =>
    let (answer, s') := write s w
    let (answers, s'') := carryOut write s' writes
    (answer :: answers, s'')

/-- **A store and a split store look alike.** -/
structure LooksLike (s : Store) (p : SplitStore) : Prop where
  capacity_eq : s.capacity = p.capacity
  length_eq : s.length = p.length
  isEmpty_eq : s.isEmpty = p.isEmpty
  peek_eq : ∀ index, s.peek index = p.peek index

theorem carryOut_cons {σ : Type} (write : σ → Write → Answer × σ) (s : σ) (w : Write)
    (writes : List Write) :
    carryOut write s (w :: writes) =
      ((write s w).1 :: (carryOut write (write s w).2 writes).1,
        (carryOut write (write s w).2 writes).2) := rfl

theorem carryOut_append {σ : Type} (write : σ → Write → Answer × σ) (s : σ)
    (writes more : List Write) :
    carryOut write s (writes ++ more) =
      ((carryOut write s writes).1 ++ (carryOut write (carryOut write s writes).2 more).1,
        (carryOut write (carryOut write s writes).2 more).2) := by
  induction writes generalizing s with
  | nil => rfl
  | cons w writes ih => simp only [List.cons_append, carryOut_cons, ih]

/-- **As many pops as pushes give the cells back,** the last one first, and the store is as it was. -/
theorem carryOut_push_pop {s : Store} (h : s.capacity ≤ s.length) (cells : List Cell) :
    carryOut write s (cells.map .push ++ List.replicate cells.length .pop) =
      (List.replicate cells.length .done ++ cells.reverse.map fun cell => .taken (some cell), s) := by
  induction cells generalizing s with
  | nil => rfl
  | cons cell cells ih =>
    -- the first push and the last pop enclose the pushes and pops of the other cells
    have hwrites : (cell :: cells).map Write.push ++ List.replicate (cell :: cells).length .pop =
        .push cell :: ((cells.map .push ++ List.replicate cells.length .pop) ++ [.pop]) := by
      rw [List.length_cons, List.replicate_succ', List.map_cons, List.cons_append,
        List.append_assoc]
    have hinner := ih (s := s.push cell) (by rw [capacity_push, length_push]; omega)
    have hpush : s.write (.push cell) = (.done, s.push cell) := rfl
    have hpop : carryOut write (s.push cell) [.pop] = ([.taken (some cell)], s) := by
      rw [carryOut_cons, write, pop_push h, carryOut]
    rw [hwrites, carryOut_cons, hpush, carryOut_append, hinner, hpop]
    simp [List.replicate_succ]

theorem capacity_write (s : Store) (w : Write) : (s.write w).2.capacity = s.capacity := by
  cases w with
  | insert cell index =>
    rw [write]
    cases hinsert : s.insert cell index with
    | ok s' => exact capacity_insert hinsert
    | error fault => rfl
  | push cell => exact capacity_push s cell
  | pop => exact capacity_pop s

theorem capacity_carryOut (s : Store) (writes : List Write) :
    (carryOut write s writes).2.capacity = s.capacity := by
  induction writes generalizing s with
  | nil => rfl
  | cons w writes ih => exact (ih (s.write w).2).trans (s.capacity_write w)

end Store

/-- One write to a split store. -/
def SplitStore.write (p : SplitStore) : Store.Write → Store.Answer × SplitStore
  | .insert cell index =>
    match p.insert cell index with
    | .ok p' => (.done, p')
    | .error fault => (.refused fault, p)
  | .push cell => (.done, p.push cell)
  | .pop => (.taken p.pop.1, p.pop.2)

namespace SplitStore

open Store (carryOut)

variable (p : SplitStore)

/-! ## Writes go along with the description -/

theorem store_vacant (n : Nat) : (vacant n).store = Store.vacant n := by
  simp [vacant, store, Store.ofParts, Store.vacant]

theorem slots_store : p.store.slots = (p.region ++ p.pushed.map some).toArray := by
  rw [store, Store.ofParts, List.reverse_reverse]

theorem length_store : p.store.length = p.length := by
  rw [store, Store.length_ofParts, List.length_reverse, length]

theorem push_store (cell : Cell) : p.store.push cell = (p.push cell).store := by
  rw [store, store, push, Store.push_ofParts, List.reverse_concat]

theorem pop_concat (region : List (Option Cell)) (before : List Cell) (cell : Cell) :
    pop ⟨region, before ++ [cell]⟩ = (some cell, ⟨region, before⟩) := by
  simp [pop]

theorem pop_store : p.store.pop = (p.pop.1, p.pop.2.store) := by
  rcases p with ⟨region, pushed⟩
  rcases List.eq_nil_or_concat' pushed with rfl | ⟨before, cell, rfl⟩
  · exact Store.pop_ofParts_nil region
  · rw [pop_concat, store, List.reverse_concat, Store.pop_ofParts_cons]
    rfl

theorem insert_store (cell : Cell) (index : Nat) :
    p.store.insert cell index = (p.insert cell index).map store := by
  rw [Store.insert, length_store, insert]
  by_cases hregion : index < p.capacity
  · have hlt : index < p.length := Nat.lt_of_lt_of_le hregion (Nat.le_add_right _ _)
    rw [if_pos hlt, if_pos hregion, slots_store, List.setIfInBounds_toArray,
      List.set_append_left _ _ hregion]
    simp [Except.map, store, Store.ofParts]
  · have hge : p.region.length ≤ index := Nat.le_of_not_lt hregion
    rw [if_neg hregion]
    split
    · rw [slots_store, List.setIfInBounds_toArray, List.set_append_right _ _ hge, ← List.map_set]
      simp [Except.map, store, Store.ofParts, capacity]
    · rfl

theorem write_store (w : Store.Write) :
    p.store.write w = ((p.write w).1, (p.write w).2.store) := by
  cases w with
  | insert cell index =>
    rw [Store.write, insert_store, write]
    cases p.insert cell index <;> rfl
  | push cell => rw [Store.write, push_store, write]
  | pop => rw [Store.write, pop_store, write]

theorem carryOut_store (writes : List Store.Write) :
    carryOut Store.write p.store writes =
      ((carryOut write p writes).1, (carryOut write p writes).2.store) := by
  induction writes generalizing p with
  | nil => rfl
  | cons w writes ih => simp only [Store.carryOut_cons, write_store, ih]

/-! ## The two look alike -/

theorem isEmpty_store : p.store.isEmpty = p.isEmpty := by
  rw [Store.isEmpty, slots_store, isEmpty]
  cases p.pushed <;> simp

theorem peek_store (index : Nat) : p.store.peek index = p.peek index := by
  unfold peek
  split
  · rename_i hregion
    exact Store.peek_ofParts_of_lt _ _ hregion
  · rename_i hregion
    obtain ⟨j, rfl⟩ := Nat.exists_eq_add_of_le (Nat.le_of_not_lt hregion)
    have hpeek := Store.peek_ofParts_add p.region p.pushed.reverse j
    rw [List.reverse_reverse] at hpeek
    rw [Nat.add_sub_cancel_left]
    exact hpeek

theorem looksLike_store : p.store.LooksLike p :=
  ⟨rfl, p.length_store, p.isEmpty_store, p.peek_store⟩

/-- A pop finds nothing only when nothing is pushed and the last addressable slot is vacant. -/
theorem pop_eq_none_iff : p.pop.1 = none ↔ p.pushed = [] ∧ (p.region.getLast?).join = none := by
  rcases p with ⟨region, pushed⟩
  rcases List.eq_nil_or_concat' pushed with rfl | ⟨before, cell, rfl⟩
  · simp [pop]
  · simp [pop_concat]

theorem length_of_isEmpty (h : p.isEmpty) : p.length = p.capacity := by
  obtain ⟨-, hpushed⟩ := Bool.and_eq_true_iff.mp h
  rw [length, List.isEmpty_iff.mp hpushed]
  rfl

end SplitStore

/-! ## Stores that come from a fresh one -/

namespace Store

theorem ofSize_of_fits {size : Word} (h : 24 * capacityFor size ≤ 2 ^ 63 - 1) :
    ofSize size = .ok (vacant (capacityFor size)) := by
  have hfits : slotBytes * capacityFor size ≤ maxBytes := by
    unfold slotBytes maxBytes
    omega
  rw [ofSize, if_pos hfits]

/-- **A store is its addressable slots and what is pushed behind them.** Whatever is written to a
fresh store of a size that fits in memory, it gives the answers of a split store and looks like one.
The addressable slots never get more or fewer, every slot behind them is occupied, and a store with
no occupied slot has no others. A pop finds nothing only when nothing is pushed and the last
addressable slot is vacant, and as many pops as pushes give the cells back and the store as it was. -/
theorem store_is_region_and_pushes (size : Word) (hsize : 24 * capacityFor size ≤ 2 ^ 63 - 1) :
    ∃ s₀, ofSize size = .ok s₀ ∧ ∀ writes answers s, carryOut write s₀ writes = (answers, s) →
      ∃ p, carryOut SplitStore.write (.vacant (capacityFor size)) writes = (answers, p) ∧
        s.LooksLike p ∧ s.capacity = capacityFor size ∧ s.capacity ≤ s.length ∧
        (∀ i, s.capacity ≤ i → i < s.length → ∃ cell, s.peek i = some cell) ∧
        (s.pop.1 = none ↔ p.pushed = [] ∧ (p.region.getLast?).join = none) ∧
        (s.isEmpty → s.length = s.capacity) ∧
        ∀ cells : List Cell,
          carryOut write s (cells.map .push ++ List.replicate cells.length .pop) =
            (List.replicate cells.length .done ++
              cells.reverse.map fun cell => .taken (some cell), s) := by
  refine ⟨_, ofSize_of_fits hsize, fun writes answers s hwrites => ?_⟩
  have hcapacity := capacity_carryOut (vacant (capacityFor size)) writes
  rw [hwrites] at hcapacity
  rw [← SplitStore.store_vacant, SplitStore.carryOut_store] at hwrites
  obtain ⟨rfl, rfl⟩ := Prod.mk.inj hwrites
  have hlaid := laidOut_ofParts
  refine ⟨_, rfl, SplitStore.looksLike_store _, hcapacity, (hlaid _ _).capacity_le,
    (hlaid _ _).occupied, ?_, fun hempty => ?_, carryOut_push_pop (hlaid _ _).capacity_le⟩
  · rw [SplitStore.pop_store]
    exact SplitStore.pop_eq_none_iff _
  · rw [SplitStore.isEmpty_store] at hempty
    exact (SplitStore.length_store _).trans (SplitStore.length_of_isEmpty _ hempty)

/-- Writes to a store with one addressable slot: a pushed cell is overwritten, three pops take more
than was pushed, and the last insertion is one too far. -/
def exhaustingWrites : List Write :=
  [.insert (.instruction .stop none) 0, .push (.value 5), .insert (.value 6) 1, .pop, .pop, .pop,
    .insert (.value 7) 1]

theorem store_is_region_and_pushes_exhausted :
    24 * capacityFor 1 ≤ 2 ^ 63 - 1 ∧ ∃ s₀ s p, ofSize 1 = .ok s₀ ∧
      carryOut write s₀ exhaustingWrites =
        ([.done, .done, .done, .taken (some (.value 6)), .taken (some (.instruction .stop none)),
          .taken none, .refused (.addressOutOfBounds 1 1)], s) ∧
      carryOut SplitStore.write (.vacant 1) exhaustingWrites =
        ([.done, .done, .done, .taken (some (.value 6)), .taken (some (.instruction .stop none)),
          .taken none, .refused (.addressOutOfBounds 1 1)], p) ∧ s.LooksLike p := by
  refine ⟨by decide, ?_⟩
  obtain ⟨s₀, hnew, hall⟩ := store_is_region_and_pushes 1 (by decide)
  obtain rfl : vacant 1 = s₀ := Except.ok.inj hnew
  obtain ⟨p, hsplit, hlooks, -⟩ := hall exhaustingWrites _ _ rfl
  exact ⟨_, _, p, hnew, rfl, hsplit, hlooks⟩

end Store

end CellMachine
