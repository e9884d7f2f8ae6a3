import CellMachine.Proofs.Computer.Refinement

/-! # Slots that a run does not visit

The program of a computer is there to be carried out, and instructions are never taken for data. A pop
that reaches into the program does read the last addressable slot, and vacates it, but whatever
instruction it finds there, it finds no value. So only the slots count at which the program counter
stands in the course of a run: the others may hold any instructions, or none.

* `Computer.Visits`: the addresses at which a run stands.
* `Store.SameTail`: two stores have the same cells behind their addressable slots.
* `Computer.Variant`: computers that differ only in addressable slots that a run does not visit.
* `StackMachine.reprogram`, `StackMachine.SharesPath`: a machine with another program, and programs
  that are the same wherever the machine stands in its run. `Proceeds.reprogram`, `Ends.reprogram`:
  with such a program it takes the same steps, and has the same run (`run_reprogram`).
* `execute_of_variant`: a variant of a reachable computer runs as the computer does. -/

namespace CellMachine

/-! ## Machines -/

namespace StackMachine

/-- The machine with another program. -/
def reprogram (m : StackMachine) (program : List (Option Instruction)) : StackMachine :=
  { m with program }

/-- A program **shares the path** of a machine when it has as many slots as the machine's own, and the
same ones wherever the machine stands in the course of its run. -/
structure SharesPath (program : List (Option Instruction)) (m : StackMachine) : Prop where
  length_eq : program.length = m.size
  slot_eq : ∀ n k, m.config.after n = some k → program[k.computer.pc]? = m.program[k.computer.pc]?

variable {m m' : StackMachine} {program : List (Option Instruction)} {ending : Ending}

theorem SharesPath.step (m m' : StackMachine) (h : SharesPath program m) (hm : m.Proceeds m') :
    SharesPath program m' where
  length_eq := by
    have hsize : m'.size = m.size := congrArg List.length hm.program_eq
    rw [h.length_eq, hsize]
  slot_eq n k hk := by
    have hafter : m.config.after (n + 1) = some k :=
      (Config.after_succ_of_next hm.cycle_eq n).trans hk
    rw [hm.program_eq]
    exact h.slot_eq (n + 1) k hafter

theorem current?_reprogram (h : program[m.pc]? = m.program[m.pc]?) :
    (m.reprogram program).current? = m.current? :=
  congrArg Option.join h

theorem SharesPath.current?_eq (h : SharesPath program m) :
    (m.reprogram program).current? = m.current? :=
  current?_reprogram (h.slot_eq 0 m.config rfl)

theorem SharesPath.size_eq (h : SharesPath program m) : (m.reprogram program).size = m.size :=
  h.length_eq

/-- **A step reads the slot under the program counter only.** -/
theorem Proceeds.reprogram (h : m.Proceeds m') (hp : SharesPath program m) :
    (m.reprogram program).Proceeds (m'.reprogram program) := by
  have hcurrent := hp.current?_eq
  have hsize := hp.size_eq
  cases h with
  | vacant h => exact .vacant ((hp.slot_eq 0 m.config rfl).trans h)
  | push w h => exact .push w (hcurrent.trans h)
  | mult a b rest h hstack => exact .mult a b rest (hcurrent.trans h) hstack
  | print w rest h hstack => exact .print w rest (hcurrent.trans h) hstack
  | call w target h hw hlt => exact .call w target (hcurrent.trans h) hw (by omega)
  | ret w rest target h hstack hw hlt =>
    exact .ret w rest target (hcurrent.trans h) hstack hw (by omega)

theorem Ends.reprogram (h : m.Ends m' ending) (hp : SharesPath program m) :
    (m.reprogram program).Ends (m'.reprogram program) ending := by
  have hcurrent := hp.current?_eq
  have hsize := hp.size_eq
  cases h with
  | passed h => exact .passed (by rw [hsize]; exact h)
  | stop h => exact .stop (hcurrent.trans h)
  | mult h hstack => exact .mult (hcurrent.trans h) hstack
  | print h hstack => exact .print (hcurrent.trans h) hstack
  | call w h hw => exact .call w (hcurrent.trans h) (by rw [hsize]; exact hw)
  | ret h hstack => exact .ret (hcurrent.trans h) hstack
  | retOut w rest h hstack hw =>
    exact .retOut w rest (hcurrent.trans h) hstack (by rw [hsize]; exact hw)

theorem run_reprogram (h : SharesPath program m) (limit : Nat) :
    (m.reprogram program).run limit = ((m.run limit).1.reprogram program, (m.run limit).2) :=
  run_map (f := (·.reprogram program)) h SharesPath.step
    (fun _ _ hp hproceeds => hproceeds.reprogram hp) (fun _ _ _ hp hends _ => hends.reprogram hp)

/-- Whether a run starts is decided by the first slot, and only then does the rest of the path count. -/
theorem execute_reprogram (hslot : program[m.pc]? = m.program[m.pc]?)
    (h : m.current?.isSome → SharesPath program m) (limit : Nat) :
    (m.reprogram program).execute limit =
      ((m.execute limit).1.reprogram program, (m.execute limit).2) := by
  rw [execute_eq_ite, execute_eq_ite, current?_reprogram hslot]
  split
  · rename_i hstart
    exact run_reprogram (h hstart) limit
  · rfl

end StackMachine

/-! ## Stores -/

/-- Two stores **have the same tail** when they have equally many addressable slots and the same cells
behind them. -/
structure Store.SameTail (s s' : Store) : Prop where
  capacity_eq : s'.capacity = s.capacity
  length_eq : s'.length = s.length
  peek_eq : ∀ i, s.capacity ≤ i → s'.peek i = s.peek i

theorem Store.sameTail_of_stack_eq {s s' : Store} (hs : s.LaidOut) (hs' : s'.LaidOut)
    (hcapacity : s'.capacity = s.capacity) (hstack : s'.stack = s.stack) : s.SameTail s' := by
  have hregion := length_region hs.capacity_le
  have hregion' := length_region hs'.capacity_le
  refine ⟨hcapacity, ?_, fun i hi => ?_⟩
  · rw [← ofParts_region_stack hs, ← ofParts_region_stack hs', length_ofParts, length_ofParts, hstack]
    omega
  · obtain ⟨j, rfl⟩ := Nat.exists_eq_add_of_le hi
    have hpeek := peek_ofParts_add s.region s.stack j
    have hpeek' := peek_ofParts_add s'.region s'.stack j
    rw [ofParts_region_stack hs, hregion] at hpeek
    rw [ofParts_region_stack hs', hregion', hcapacity, hstack] at hpeek'
    rw [hpeek, hpeek']

/-! ## Computers -/

namespace Computer

/-- **The addresses that a run visits.** A run that does not start stands where the program counter
is. -/
def Visits (c : Computer) (i : Nat) : Prop :=
  i = c.pc ∨ c.canStart ∧ ∃ n k, c.start.after n = some k ∧ k.computer.pc = i

/-- **Variants of a computer.** They have its size, its program counter and its operands, and the same
addressable slots where its run stands. Any other addressable slot is vacant or holds any well-formed
instruction. -/
structure Variant (c c' : Computer) : Prop where
  pc_eq : c'.pc = c.pc
  tail : c.store.SameTail c'.store
  visited : ∀ i < c.size, c.Visits i → c'.store.peek i = c.store.peek i
  program : ∀ i < c.size, ∀ cell, c'.store.peek i = some cell → cell.IsInstruction

variable {c c' : Computer}

theorem Variant.size_eq (hv : c.Variant c') : c'.size = c.size := hv.tail.capacity_eq

theorem Variant.sound (hv : c.Variant c') (h : c.Sound) : c'.Sound where
  size_pos := by rw [hv.size_eq]; exact h.size_pos
  size_le := by rw [hv.size_eq, hv.tail.length_eq]; exact h.size_le
  pc_le := by rw [hv.pc_eq, hv.tail.length_eq]; exact h.pc_le
  program i hi cell hcell := by
    rw [hv.size_eq] at hi
    exact hv.program i hi cell hcell
  operands i hle hlt := by
    rw [hv.size_eq] at hle
    rw [hv.tail.length_eq] at hlt
    rw [hv.tail.peek_eq i hle]
    exact h.operands i hle hlt

theorem Variant.machine_eq (hv : c.Variant c') :
    c'.machine = c.machine.reprogram c'.machine.program := by
  have hstack : c'.store.stack = c.store.stack :=
    Store.stack_congr hv.tail.capacity_eq hv.tail.length_eq hv.tail.peek_eq
  simp only [machine, StackMachine.reprogram, hstack, hv.pc_eq]

/-- The two programs have the same slot wherever the run of the computer stands, in the program or
behind it. -/
theorem Variant.slot_eq (hv : c.Variant c') (h : c.Sound) {i : Nat} (hi : c.Visits i) :
    c'.machine.program[i]? = c.machine.program[i]? := by
  have h' := hv.sound h
  by_cases hlt : i < c.size
  · have hlt' : i < c'.size := by rw [hv.size_eq]; exact hlt
    rw [h.getElem?_machine hlt, h'.getElem?_machine hlt', hv.visited i hlt hi]
  · have hsize := h.size_machine
    have hsize' := h'.size_machine.trans hv.size_eq
    unfold StackMachine.size at hsize hsize'
    rw [List.getElem?_eq_none (by omega), List.getElem?_eq_none (by omega)]

theorem Variant.sharesPath (hv : c.Variant c') (h : c.Sound) (hstart : c.canStart) :
    StackMachine.SharesPath c'.machine.program c.machine where
  length_eq := by
    have hsize := h.size_machine
    have hsize' := (hv.sound h).size_machine.trans hv.size_eq
    exact hsize'.trans hsize.symm
  slot_eq n k hk := by
    rw [← h.start_eq] at hk
    exact hv.slot_eq h (Or.inr ⟨hstart, n, k, hk, rfl⟩)

/-- **What a run does not visit does not matter.** Whatever instructions stand, or do not stand, in the
addressable slots of a reachable computer at which the program counter never comes to stand, its run
ends in the same way within the same number of cycles, with the same payload or fault, and has printed
the same values; and it leaves the same program counter and the same operands. -/
theorem execute_of_variant (h : c.Reachable) (hv : c.Variant c') (limit : Nat) :
    (c'.execute limit).ending = (c.execute limit).ending ∧
      (c'.execute limit).printed = (c.execute limit).printed ∧
      (c'.execute limit).computer.pc = (c.execute limit).computer.pc ∧
      (c.execute limit).computer.store.SameTail (c'.execute limit).computer.store := by
  have hsound := h.sound
  have hsound' := hv.sound hsound
  have hcurrent : c.canStart = c.machine.current?.isSome := by
    rw [← c.machine.canStart_computer, hsound.computer_machine]
  have hrun := StackMachine.execute_reprogram (hv.slot_eq hsound (Or.inl rfl))
    (fun hstart => hv.sharesPath hsound (hcurrent.trans hstart)) limit
  rw [← hv.machine_eq] at hrun
  have hagrees := hsound.execute_agrees limit
  have hagrees' := hsound'.execute_agrees limit
  rw [hrun] at hagrees'
  obtain ⟨hlast, hsize⟩ := hsound.execute limit
  obtain ⟨hlast', hsize'⟩ := hsound'.execute limit
  refine ⟨hagrees'.ending_eq.trans hagrees.ending_eq.symm,
    hagrees'.printed_eq.trans hagrees.printed_eq.symm,
    hagrees'.pc_eq.trans hagrees.pc_eq.symm, ?_⟩
  refine Store.sameTail_of_stack_eq hlast.laidOut hlast'.laidOut ?_
    (hagrees'.stack_eq.trans hagrees.stack_eq.symm)
  exact hsize'.trans (hv.size_eq.trans hsize.symm)

/-- A computer of two addressable slots that is to print and has nothing to print. What stands in its
last slot is read by the print and never carried out. -/
def printingNothing (last : Option Cell) : Computer :=
  ⟨⟨2, #[some (.instruction .print none), last]⟩, 0⟩

theorem reachable_printingNothing :
    (printingNothing (some (.instruction .call (some 50)))).Reachable :=
  ⟨2, _, [.insertOp .print none, .insertOp .call (some 50), .setAddress 0], rfl,
    .cons rfl <| .cons rfl <| .cons rfl (.nil _)⟩

theorem visits_printingNothing {i : Nat}
    (h : (printingNothing (some (.instruction .call (some 50)))).Visits i) : i = 0 := by
  rcases h with rfl | ⟨-, n, k, hafter, rfl⟩
  · rfl
  · cases n with
    | zero =>
      cases hafter
      rfl
    | succ n => cases hafter

/-- A push that stands in the last slot in place of a call is no value to print either. -/
theorem execute_of_variant_printingNothing :
    (printingNothing (some (.instruction .call (some 50)))).Reachable ∧
      Variant (printingNothing (some (.instruction .call (some 50))))
        (printingNothing (some (.instruction .push (some 7)))) ∧
      ((printingNothing (some (.instruction .push (some 7)))).execute 1).ending =
        .failed (.missingOutput 0) := by
  have hv : Variant (printingNothing (some (.instruction .call (some 50))))
      (printingNothing (some (.instruction .push (some 7)))) := by
    refine ⟨rfl, ⟨rfl, rfl, fun i hi => ?_⟩, fun i _ hvisits => ?_, ?_⟩
    · have hlength : 2 ≤ i := hi
      rw [Store.peek_of_length_le hlength, Store.peek_of_length_le hlength]
    · rw [visits_printingNothing hvisits]
      rfl
    · intro i hi cell hcell
      have hlt : i < 2 := hi
      obtain rfl | rfl : i = 0 ∨ i = 1 := by omega
      · cases hcell
        exact Instruction.isInstruction_cell .print
      · cases hcell
        exact Instruction.isInstruction_cell (.push 7)
  exact ⟨reachable_printingNothing, hv, (execute_of_variant reachable_printingNothing hv 1).1⟩

end Computer

end CellMachine
