import CellMachine.Proofs.Computer.Reachable

/-! # Runs refine the stack machine

A computer runs like the stack machine that it shows, cycle by cycle: within every limit both runs
end in the same way, or neither has ended yet. What they printed, where they stand and which operands
are left is the same, and unless an instruction failed the computer still shows the machine as a
whole.

* `Agrees`: what the outcome of a run has in common with the end of a run of the machine.
* `run_agrees`: runs from the same state agree. `execute_agrees`: so do whole runs.
* `execute_refines_stackMachine`: whole runs of a reachable computer agree with those of its machine. -/

namespace CellMachine

/-- **Agreement** of an outcome with a machine at the end of its run and with how that run ended. -/
structure Agrees (o : Outcome) (m : StackMachine) (ending : Ending) : Prop where
  ending_eq : o.ending = ending
  printed_eq : o.printed = m.printed
  pc_eq : o.computer.pc = m.pc
  size_eq : o.computer.size = m.size
  stack_eq : o.computer.store.stack = m.stack
  computer_eq : (∀ fault, ending ≠ .failed fault) → o.computer = m.computer

namespace StackMachine

variable {m m' : StackMachine} {ending : Ending}

theorem agrees_computer (m : StackMachine) (ending : Ending) :
    Agrees ⟨m.computer, m.printed, ending⟩ m ending :=
  ⟨rfl, rfl, rfl, m.size_computer, Store.stack_ofParts _ _, fun _ => rfl⟩

theorem Ends.failed_of_starved (h : m.Ends m' ending) (hm : m.starved) :
    ∃ fault, ending = .failed fault := by
  obtain ⟨i, hi, hlt⟩ := starved_iff.mp hm
  cases h with
  | passed hge => exact absurd (pc_lt_of_current? hi) (Nat.not_lt_of_le hge)
  | stop hstop =>
    rw [hi] at hstop
    cases hstop
    exact absurd hlt (Nat.not_lt_zero _)
  | mult | print | call | ret | retOut => exact ⟨_, rfl⟩

theorem agrees_of_ends (h : m.Ends m' ending) :
    Agrees ⟨(if m.starved then m'.vacate else m').computer, m'.printed, ending⟩ m' ending := by
  split
  · rename_i hm
    refine ⟨rfl, rfl, rfl, ?_, Store.stack_ofParts _ _, fun hne => ?_⟩
    · exact m'.vacate.size_computer.trans (length_vacateLast m'.program)
    · obtain ⟨fault, rfl⟩ := h.failed_of_starved hm
      exact absurd rfl (hne fault)
  · exact m'.agrees_computer ending

theorem run_agrees (limit : Nat) (m : StackMachine) :
    Agrees (m.config.run limit) (m.run limit).1 (m.run limit).2 := by
  induction limit generalizing m with
  | zero => exact m.agrees_computer .unfinished
  | succ limit ih =>
    rw [Config.run_succ, cycle_config, run]
    cases hstep : m.step with
    | next m' => exact ih m'
    | halt m' ending => exact agrees_of_ends (ends_of_step hstep)

theorem canStart_computer (m : StackMachine) : m.computer.canStart = m.current?.isSome := by
  unfold Computer.canStart
  rw [size_computer]
  by_cases hpc : m.pc < m.size
  · have hlt : decide (m.computer.pc < m.size) = true := decide_eq_true hpc
    have hpeek : m.computer.store.peek m.computer.pc = m.current?.map Instruction.cell :=
      m.peek_computer hpc
    rw [hlt, hpeek, Option.isSome_map, Bool.true_and]
  · have hge : decide (m.computer.pc < m.size) = false := decide_eq_false hpc
    have hnone : m.current? = none := by
      rw [current?, List.getElem?_eq_none (Nat.le_of_not_lt hpc)]; rfl
    rw [hge, hnone, Bool.false_and]
    rfl

theorem execute_eq_ite (limit : Nat) (m : StackMachine) :
    m.execute limit =
      if m.current?.isSome then m.run limit else (m, .failed (.noInstruction m.pc)) := by
  unfold execute current?
  rcases m.program[m.pc]? with _ | _ | i <;> rfl

/-- **Whole runs agree,** from a machine that has produced and printed nothing yet. -/
theorem execute_agrees (m : StackMachine) (hpayload : m.payload = none) (hprinted : m.printed = #[])
    (limit : Nat) :
    Agrees (m.computer.execute limit) (m.execute limit).1 (m.execute limit).2 := by
  have hstart : m.computer.start = m.config := by
    rw [config, hpayload, hprinted]
    rfl
  rw [execute_eq_ite, Computer.execute, canStart_computer]
  split
  · rw [hstart]
    exact m.run_agrees limit
  · have hagrees := m.agrees_computer (.failed (.noInstruction m.pc))
    rw [hprinted] at hagrees
    exact hagrees

end StackMachine

namespace Computer

variable {c : Computer}

theorem Sound.execute_agrees (h : c.Sound) (limit : Nat) :
    Agrees (c.execute limit) (c.machine.execute limit).1 (c.machine.execute limit).2 := by
  have hagrees := c.machine.execute_agrees rfl rfl limit
  rw [h.computer_machine] at hagrees
  exact hagrees

/-- **A reachable computer runs like its stack machine.** Taking the computer apart into program,
operands and program counter loses nothing. Within every limit, its run and that of the machine have
both ended or are both still going on; they have the same ending with the same payload or fault, have
printed the same values, and stand at the same address with the same operands. If no instruction
failed, the program is untouched as well. -/
theorem execute_refines_stackMachine (h : c.Reachable) :
    c.machine.computer = c ∧
      ∀ limit, Agrees (c.execute limit) (c.machine.execute limit).1 (c.machine.execute limit).2 :=
  ⟨h.sound.computer_machine, h.sound.execute_agrees⟩

/-- A multiplication that finds one value only, in the last slot of the program. The machine keeps
its program and the computer does not, but the fault and all else is the same. -/
theorem execute_refines_stackMachine_starved :
    Reachable ⟨⟨2, #[some (.instruction .push (some 5)), some (.instruction .mult none)]⟩, 0⟩ ∧
      Agrees
        ⟨⟨⟨2, #[some (.instruction .push (some 5)), none]⟩, 1⟩, #[], .failed (.missingFactors 1)⟩
        ⟨[some (.push 5), some .mult], [], 1, none, #[]⟩ (.failed (.missingFactors 1)) := by
  refine (fun h => ⟨h, (execute_refines_stackMachine h).2 2⟩) ?_
  exact ⟨2, _, [.insertOp .push (some 5), .insertOp .mult none, .setAddress 0], rfl,
    .cons rfl <| .cons rfl <| .cons rfl (.nil _)⟩

end Computer

end CellMachine
