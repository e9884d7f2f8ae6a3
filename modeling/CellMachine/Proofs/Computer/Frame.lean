import CellMachine.Proofs.Computer.Refinement

/-! # Operands that a run does not touch

An instruction works on the top of the operands. Whatever lies below the operands that a run started
with stays there unread, as long as every instruction finds the values it takes above it. A run that
ends well is such a run: the program holds no values, so an instruction that wants more than the
operands there are would have failed. Such a run therefore goes the same way when further cells are
laid *under* its operands, next to the program, and leaves them where they are.

* `StackMachine.atop`: a machine with further cells below its operands; `Proceeds.atop`, `Ends.atop`:
  it takes the same steps.
* `Store.underlay`, `Computer.underlay`: the same for stores and computers, where these cells come
  between the addressable slots and what is pushed; `computer_atop`: the two go together.
* `run_atop`: a run of a machine that ends well goes the same way over further cells.
* `execute_underlay`: so does a run of a reachable computer. -/

namespace CellMachine

/-! ## Machines -/

namespace StackMachine

/-- **The machine over further cells:** they lie below its operands, the uppermost first. -/
def atop (m : StackMachine) (below : List Cell) : StackMachine :=
  { m with stack := m.stack ++ below }

variable {m m' : StackMachine}

theorem stack_atop (taken : List Cell) {rest : List Cell} (h : m.stack = taken ++ rest)
    (below : List Cell) : (m.atop below).stack = taken ++ (rest ++ below) := by
  rw [atop, h, List.append_assoc]

theorem Proceeds.atop (h : m.Proceeds m') (below : List Cell) :
    (m.atop below).Proceeds (m'.atop below) := by
  cases h with
  | vacant h => exact .vacant h
  | push w h => exact .push w h
  | mult a b rest h hstack =>
    have hover := stack_atop [.value a, .value b] hstack below
    exact .mult a b (rest ++ below) h hover
  | print w rest h hstack =>
    have hover := stack_atop [.value w] hstack below
    exact .print w (rest ++ below) h hover
  | call w target h hw hlt => exact .call w target h hw hlt
  | ret w rest target h hstack hw hlt =>
    have hover := stack_atop [.value w] hstack below
    exact .ret w (rest ++ below) target h hover hw hlt

theorem Ends.atop {payload : Option Word} (h : m.Ends m' (.finished payload)) (below : List Cell) :
    (m.atop below).Ends (m'.atop below) (.finished payload) := by
  cases h with
  | passed h => exact .passed h
  | stop h => exact .stop h

/-- **A run that ends well goes the same way over further cells,** and leaves them as they are. -/
theorem run_atop {limit : Nat} {payload : Option Word} (h : (m.run limit).2 = .finished payload)
    (below : List Cell) :
    (m.atop below).run limit = ((m.run limit).1.atop below, .finished payload) := by
  rw [← h]
  refine run_map (f := (·.atop below)) (P := fun _ => True) trivial (fun _ _ _ _ => trivial)
    (fun m₁ m₂ _ hproceeds => hproceeds.atop below) (fun m₁ m₂ ending _ hends hending => ?_)
  -- the last step has the ending of the run, so it is not a failure
  obtain rfl : ending = .finished payload := hending.symm.trans h
  exact hends.atop below

theorem execute_atop {limit : Nat} {payload : Option Word}
    (h : (m.execute limit).2 = .finished payload) (below : List Cell) :
    (m.atop below).execute limit = ((m.execute limit).1.atop below, .finished payload) := by
  have hcurrent : (m.atop below).current? = m.current? := rfl
  rw [execute_eq_ite] at h ⊢
  rw [execute_eq_ite, hcurrent]
  split at h
  · rename_i hstart
    rw [if_pos hstart, if_pos hstart]
    exact run_atop h below
  · cases h

end StackMachine

/-! ## Stores and computers -/

/-- **The store with further cells** between its addressable slots and what is pushed behind them, in
the order of their slots. -/
def Store.underlay (s : Store) (cells : List Cell) : Store :=
  { s with slots := (s.region ++ cells.map some ++ s.slots.toList.drop s.capacity).toArray }

/-- **The computer with further cells** under its operands. Program and program counter are the same. -/
def Computer.underlay (c : Computer) (cells : List Cell) : Computer :=
  { c with store := c.store.underlay cells }

theorem Store.underlay_ofParts (region : List (Option Cell)) (stack cells : List Cell) :
    (ofParts region stack).underlay cells = ofParts region (stack ++ cells.reverse) := by
  simp [underlay, ofParts, Store.region]

/-- The computer that shows a machine over further cells is the one that shows the machine, with these
cells laid under its operands. -/
theorem StackMachine.computer_atop (m : StackMachine) (cells : List Cell) :
    (m.atop cells.reverse).computer = m.computer.underlay cells := by
  rw [Computer.underlay, computer, computer, Store.underlay_ofParts]
  rfl

namespace Computer

variable {c : Computer}

/-- **A run that ends well does not touch what lies under its operands.** When a run of a reachable
computer ends well, then with any cells laid under the operands it takes as many cycles, ends with the
same payload, has printed the same values, and leaves the same computer with the same cells under its
operands. -/
theorem execute_underlay (h : c.Reachable) {limit : Nat} {payload : Option Word}
    (hok : (c.execute limit).ending = .finished payload) (cells : List Cell) :
    (c.underlay cells).execute limit =
      ⟨(c.execute limit).computer.underlay cells, (c.execute limit).printed, .finished payload⟩ := by
  have hagrees := h.sound.execute_agrees limit
  have hending : (c.machine.execute limit).2 = .finished payload := hagrees.ending_eq.symm.trans hok
  have hcomputer : (c.execute limit).computer = (c.machine.execute limit).1.computer :=
    hagrees.computer_eq fun fault => by simp [hending]
  -- the same machine over the cells shows the computer with the cells under its operands
  have hover := (c.machine.atop cells.reverse).execute_agrees rfl rfl limit
  rw [StackMachine.execute_atop hending, StackMachine.computer_atop, h.sound.computer_machine] at hover
  have hcomputer' := hover.computer_eq fun fault => by simp
  rw [StackMachine.computer_atop, ← hcomputer] at hcomputer'
  have hprinted' : ((c.underlay cells).execute limit).printed = (c.execute limit).printed :=
    hover.printed_eq.trans hagrees.printed_eq.symm
  have hending' : ((c.underlay cells).execute limit).ending = .finished payload := hover.ending_eq
  rw [← hcomputer', ← hprinted', ← hending']

/-- A computer that is about to print the value `5`, which an earlier run has pushed. -/
def printing : Computer :=
  ⟨⟨2, #[some (.instruction .print none), some (.instruction .stop none), some (.value 5)]⟩, 0⟩

theorem reachable_printing : printing.Reachable :=
  ⟨2, _, [.insertOp .push (some 5), .insertOp .stop none, .setAddress 0, .execute, .setAddress 0,
    .insertOp .print none, .setAddress 0], rfl,
    .cons rfl <| .cons rfl <| .cons rfl <| .cons ⟨2, by decide, rfl⟩ <| .cons rfl <| .cons rfl <|
      .cons rfl (.nil _)⟩

/-- It takes its one operand, and of the value and the return that lie under it neither. -/
theorem execute_underlay_printing :
    printing.Reachable ∧ (printing.execute 2).ending = .finished (some 5) ∧
      (printing.underlay [.value 7, .instruction .ret none]).execute 2 =
        ⟨⟨⟨2, #[some (.instruction .print none), some (.instruction .stop none), some (.value 7),
          some (.instruction .ret none)]⟩, 1⟩, #[5], .finished (some 5)⟩ := by
  have hok : (printing.execute 2).ending = .finished (some 5) := by decide
  exact ⟨reachable_printing, hok, execute_underlay reachable_printing hok _⟩

end Computer

end CellMachine
