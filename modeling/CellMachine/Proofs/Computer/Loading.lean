import CellMachine.Proofs.Computer.Edit

/-! # Loading a program

A program is loaded by one insertion after another. An insertion that fails leaves the program
counter where it is, so the next one that succeeds closes the gap: the instructions of the complete
orders come to stand in consecutive slots, in their order, as far as there are slots in the store.
What an order is answered depends on nothing but the order itself and the number of complete orders
before it.

* `Order`, `Order.Writes`: what an insertion is asked for, and the instruction that a complete order
  has written; `Order.cell?`, `cell?_eq_some_iff`: the same as a function.
* `Computer.faults`: the answers to edits in turn.
* `Computer.Packs`: a computer with cells written from its program counter on.
* `packs_insert`, `packs_edit`: what one order and a list of orders do.
* `fault_of_unknown`, `fault_of_incomplete`, `fault_of_complete`: what an order is answered.
* `orders_packed`: what loading does to a reachable computer, and how each order is answered. -/

namespace CellMachine

theorem Opcode.takesArgument_iff {op : Opcode} :
    op.takesArgument = true ↔ op = .call ∨ op = .push := by
  cases op <;> decide

/-! ## Orders -/

/-- **Orders.** The mnemonic and the argument of an insertion. -/
structure Order where
  mnemonic : Text
  argument : Option Word
deriving DecidableEq, Repr

namespace Order

/-- **The instruction that a complete order has written.** The mnemonic is that of an operation,
spelt exactly. A call or a push needs its argument and keeps it; any other operation drops it. -/
inductive Writes : Order → Cell → Prop
  | keeps (op : Opcode) (w : Word) (h : op = .call ∨ op = .push) :
    Writes ⟨op.mnemonic, some w⟩ (.instruction op (some w))
  | drops (op : Opcode) (argument : Option Word) (h : ¬ (op = .call ∨ op = .push)) :
    Writes ⟨op.mnemonic, argument⟩ (.instruction op none)

/-- The order as an edit. -/
def edit (o : Order) : Edit := .insert o.mnemonic o.argument

/-- The instruction that an order has written, if it is complete. -/
def cell? (o : Order) : Option Cell := o.edit.instruction?

variable {o : Order} {cell : Cell}

theorem cell?_eq_some_iff : o.cell? = some cell ↔ o.Writes cell := by
  rcases o with ⟨mnemonic, argument⟩
  constructor
  · intro h
    obtain ⟨op, hop, hcell⟩ := Option.bind_eq_some_iff.mp h
    obtain rfl := Opcode.mnemonic_of_ofMnemonic? hop
    unfold Opcode.instruction? at hcell
    split at hcell
    · rename_i htakes
      obtain ⟨w, rfl, rfl⟩ := Option.map_eq_some_iff.mp hcell
      exact .keeps op w (Opcode.takesArgument_iff.mp htakes)
    · rename_i htakes
      cases hcell
      exact .drops op argument (mt Opcode.takesArgument_iff.mpr htakes)
  · intro h
    cases h with
    | keeps op w h =>
      show (Opcode.ofMnemonic? op.mnemonic).bind (·.instruction? (some w)) = _
      rw [Opcode.ofMnemonic?_mnemonic, Option.bind_some, Opcode.instruction?,
        if_pos (Opcode.takesArgument_iff.mpr h)]
      rfl
    | drops op argument h =>
      show (Opcode.ofMnemonic? op.mnemonic).bind (·.instruction? argument) = _
      rw [Opcode.ofMnemonic?_mnemonic, Option.bind_some, Opcode.instruction?,
        if_neg (mt Opcode.takesArgument_iff.mp h)]

end Order

/-! ## What an order is answered -/

/-- The fault of an attempt that fails. -/
def Computer.fault? : Except Fault Computer → Option Fault
  | .ok _ => none
  | .error fault => some fault

namespace Computer

/-- **The answers to edits in turn:** the fault of each that fails. -/
def faults (c : Computer) : List Edit → List (Option Fault)
  | [] => []
  | e :: edits => fault? (e.result c) :: (c.attempt (e.result c)).faults edits

/-- An edit is answered as the computer stands that the edits before it have left. -/
theorem getElem?_faults (edits : List Edit) (c : Computer) (k : Nat) :
    (c.faults edits)[k]? = (edits[k]?).map fun e => fault? (e.result (c.edit (edits.take k))) := by
  induction edits generalizing c k with
  | nil => rfl
  | cons e edits ih =>
    cases k with
    | zero => rfl
    | succ k => exact ih (c.attempt (e.result c)) k

variable {c c₁ c' : Computer} {o : Order} {cell : Cell}

theorem fault_of_unknown (h : ∀ op : Opcode, o.mnemonic ≠ op.mnemonic) (c : Computer) :
    o.edit.result c = .error (.unknownMnemonic o.mnemonic) := by
  have hnone : Opcode.ofMnemonic? o.mnemonic = none := by
    rw [Option.eq_none_iff_forall_not_mem]
    intro op hop
    exact h op (Opcode.mnemonic_of_ofMnemonic? hop).symm
  show c.insert o.mnemonic o.argument = _
  rw [Computer.insert, hnone]

theorem fault_of_incomplete {op : Opcode} (h : op = .call ∨ op = .push) (c : Computer) :
    (Order.edit ⟨op.mnemonic, none⟩).result c = .error (.missingArgument op) := by
  have hencode : encode op none = .error (.missingArgument op) := by
    rw [encode, if_pos (Opcode.takesArgument_iff.mpr h)]
  show c.insert op.mnemonic none = _
  rw [Computer.insert, Opcode.ofMnemonic?_mnemonic]
  dsimp only
  rw [insertOp, hencode]

theorem fault_of_complete (h : o.cell? = some cell) (c : Computer) :
    fault? (o.edit.result c) = if c.pc < c.store.length then none
      else some (.addressOutOfBounds c.pc c.store.length) := by
  rw [Edit.result_of_instruction? h, Store.insert]
  split <;> rfl

/-! ## What orders write -/

/-- **The computer `c'` is `c` with cells packed from its program counter on:** they stand in
consecutive slots, the program counter is behind the last of them, and nothing else has changed. -/
structure Packs (c c' : Computer) (cells : List Cell) : Prop where
  pc_eq : c'.pc = c.pc + cells.length
  size_eq : c'.size = c.size
  length_eq : c'.store.length = c.store.length
  packed : ∀ j < cells.length, c'.store.peek (c.pc + j) = cells[j]?
  kept : ∀ i, i < c.pc ∨ c.pc + cells.length ≤ i → c'.store.peek i = c.store.peek i

theorem packs_nil (c : Computer) : c.Packs c [] where
  pc_eq := rfl
  size_eq := rfl
  length_eq := rfl
  packed j hj := absurd hj (Nat.not_lt_zero j)
  kept _ _ := rfl

theorem Packs.append {cells more : List Cell} (h : c.Packs c₁ cells) (h' : c₁.Packs c' more) :
    c.Packs c' (cells ++ more) where
  pc_eq := by
    have hpc := h.pc_eq
    have hpc' := h'.pc_eq
    rw [List.length_append]
    omega
  size_eq := h'.size_eq.trans h.size_eq
  length_eq := h'.length_eq.trans h.length_eq
  packed j hj := by
    have hpc := h.pc_eq
    rw [List.length_append] at hj
    by_cases hfirst : j < cells.length
    · have hbefore : c.pc + j < c₁.pc := by omega
      rw [h'.kept _ (Or.inl hbefore), h.packed j hfirst, List.getElem?_append_left hfirst]
    · have hslot : c.pc + j = c₁.pc + (j - cells.length) := by omega
      have hmore : j - cells.length < more.length := by omega
      rw [hslot, h'.packed _ hmore, List.getElem?_append_right (by omega)]
  kept i hi := by
    have hpc := h.pc_eq
    rw [List.length_append] at hi
    rw [h'.kept i (by omega), h.kept i (by omega)]

theorem packs_of_lt (h : o.cell? = some cell) (hlt : c.pc < c.store.length) :
    c.Packs (c.attempt (o.edit.result c)) [cell] := by
  have hstore : c.store.insert cell c.pc =
      .ok { c.store with slots := c.store.slots.setIfInBounds c.pc (some cell) } := if_pos hlt
  have hpeek := Store.peek_insert hstore
  rw [Edit.result_of_instruction? h, hstore]
  refine ⟨rfl, Store.capacity_insert hstore, Store.length_insert hstore, fun j hj => ?_,
    fun i hi => ?_⟩
  · obtain rfl : j = 0 := Nat.lt_one_iff.mp hj
    exact (hpeek c.pc).trans (if_pos rfl)
  · rw [List.length_singleton] at hi
    exact (hpeek i).trans (if_neg (by omega))

theorem packs_insert (o : Order) (c : Computer) :
    c.Packs (c.attempt (o.edit.result c)) (o.cell?.toList.take (c.store.length - c.pc)) := by
  cases hcell : o.cell? with
  | none =>
    have hfails : ∀ c', o.edit.result c ≠ .ok c' := by
      intro c' hok
      obtain ⟨cell, hsome⟩ := Edit.instruction?_of_result rfl hok
      have hnone : o.edit.instruction? = none := hcell
      rw [hnone] at hsome
      cases hsome
    cases hresult : o.edit.result c with
    | ok c' => exact absurd hresult (hfails c')
    | error fault =>
      rw [Option.toList_none, List.take_nil]
      exact c.packs_nil
  | some cell =>
    rw [Option.toList_some]
    by_cases hlt : c.pc < c.store.length
    · have htake : [cell].take (c.store.length - c.pc) = [cell] :=
        List.take_of_length_le (by rw [List.length_singleton]; omega)
      rw [htake]
      exact packs_of_lt hcell hlt
    · have hroom : c.store.length - c.pc = 0 := by omega
      have hresult := Edit.result_of_instruction? (c := c) hcell
      rw [Store.insert, if_neg hlt] at hresult
      rw [hroom, List.take_zero, hresult]
      exact c.packs_nil

/-- **What orders do:** the instructions of the complete ones are packed as far as slots go. -/
theorem packs_edit (orders : List Order) (c : Computer) :
    c.Packs (c.edit (orders.map Order.edit))
      ((orders.filterMap Order.cell?).take (c.store.length - c.pc)) := by
  induction orders generalizing c with
  | nil =>
    rw [List.filterMap_nil, List.take_nil]
    exact c.packs_nil
  | cons o orders ih =>
    have hfirst := c.packs_insert o
    have hrest := ih (c.attempt (o.edit.result c))
    -- the room that is left is less by the instructions that are packed already
    have hpc := hfirst.pc_eq
    have hlength := hfirst.length_eq
    have hcells : (o :: orders).filterMap Order.cell? =
        o.cell?.toList ++ orders.filterMap Order.cell? := by
      rw [List.filterMap_cons]
      cases o.cell? <;> rfl
    rw [List.length_take] at hpc
    have hroom : (c.attempt (o.edit.result c)).store.length - (c.attempt (o.edit.result c)).pc =
        c.store.length - c.pc - o.cell?.toList.length := by omega
    rw [hroom] at hrest
    rw [hcells, List.take_append]
    exact hfirst.append hrest

/-! ## Reachable computers -/

/-- **Loading packs the complete orders.** Let orders be inserted one after another into a reachable
computer, whatever becomes of each. The instructions of the complete orders come to stand in
consecutive slots from the program counter on, in their order, until the store has no further slot;
the program counter ends up behind them, and all other slots, the size and the length are as they
were. An order with a mnemonic of no operation is answered by that mnemonic, and a call or a push
without an argument by its operation. A complete order succeeds as long as there were slots for it
and all complete orders before it, and is answered by the length of the store from then on. -/
theorem orders_packed (h : c.Reachable) (orders : List Order) :
    (∀ o cell, Order.cell? o = some cell ↔ o.Writes cell) ∧
    c.Packs (c.edit (orders.map Order.edit))
      ((orders.filterMap Order.cell?).take (c.store.length - c.pc)) ∧
    ∀ k o, orders[k]? = some o →
      ((∀ op : Opcode, o.mnemonic ≠ op.mnemonic) →
        (c.faults (orders.map Order.edit))[k]? = some (some (.unknownMnemonic o.mnemonic))) ∧
      (∀ op : Opcode, o = ⟨op.mnemonic, none⟩ → op = .call ∨ op = .push →
        (c.faults (orders.map Order.edit))[k]? = some (some (.missingArgument op))) ∧
      (∀ cell, o.Writes cell →
        (c.faults (orders.map Order.edit))[k]? = some
          (if ((orders.take k).filterMap Order.cell?).length < c.store.length - c.pc then none
            else some (.addressOutOfBounds c.store.length c.store.length))) := by
  refine ⟨fun o cell => Order.cell?_eq_some_iff, c.packs_edit orders, fun k o hk => ?_⟩
  have hanswer : (c.faults (orders.map Order.edit))[k]? =
      some (fault? (o.edit.result (c.edit ((orders.take k).map Order.edit)))) := by
    rw [getElem?_faults, List.getElem?_map, hk, List.map_take]
    rfl
  rw [hanswer]
  refine ⟨fun hunknown => ?_, fun op ho hop => ?_, fun cell hwrites => ?_⟩
  · rw [fault_of_unknown hunknown]
    rfl
  · rw [ho, fault_of_incomplete hop]
    rfl
  · have hbefore := c.packs_edit (orders.take k)
    have hpc := hbefore.pc_eq
    have hlength := hbefore.length_eq
    have hle := h.sound.pc_le
    rw [List.length_take] at hpc
    rw [fault_of_complete (Order.cell?_eq_some_iff.mpr hwrites), hlength, hpc]
    split
    · rw [if_pos (by omega)]
    · have hfull : c.pc + min (c.store.length - c.pc)
          ((orders.take k).filterMap Order.cell?).length = c.store.length := by omega
      rw [if_neg (by omega), hfull]

/-- A computer with a vacant slot under its program counter and an operand behind it. -/
def halfLoaded : Computer := ⟨⟨2, #[some (.instruction .push (some 5)), none, some (.value 5)]⟩, 1⟩

theorem reachable_halfLoaded : halfLoaded.Reachable :=
  ⟨2, _, [.insertOp .push (some 5), .setAddress 0, .execute, .setAddress 1], rfl,
    .cons rfl <| .cons rfl <| .cons ⟨3, by decide, rfl⟩ <| .cons rfl (.nil _)⟩

/-- Orders of which the third, the fifth and the last are complete. -/
def patchyOrders : List Order :=
  [⟨"JUMP".toList, some 1⟩, ⟨"PUSH".toList, none⟩, ⟨"PRINT".toList, some 4⟩,
    ⟨"push".toList, some 1⟩, ⟨"CALL".toList, some 0⟩, ⟨"STOP".toList, none⟩]

/-- A print without its argument and a call fill the two slots that are left, the second of them in
place of the operand, and there is none for the stop. -/
theorem orders_packed_patchy :
    halfLoaded.Reachable ∧
      halfLoaded.Packs (halfLoaded.edit (patchyOrders.map Order.edit))
        [.instruction .print none, .instruction .call (some 0)] ∧
      (halfLoaded.faults (patchyOrders.map Order.edit))[5]? =
        some (some (.addressOutOfBounds 3 3)) := by
  obtain ⟨-, hpacks, hfaults⟩ := orders_packed reachable_halfLoaded patchyOrders
  obtain ⟨-, -, hcomplete⟩ := hfaults 5 ⟨"STOP".toList, none⟩ rfl
  exact ⟨reachable_halfLoaded, hpacks, hcomplete _ (.drops .stop none (by decide))⟩

end Computer

end CellMachine
