import CellMachine.Proofs.Computer.Refinement

/-! # Runs that end

A program can run for ever, but it needs a way back to do so. There are two: a call of an address
that is not behind the call, and a return. Without the first, each step leads on through the program
unless it returns, and a return takes an operand. So the run ends if there are no returns; and it
ends if there are no pushes, because then no step brings operands, and those that were there at the
start are used up.

* `run_ends_of_measure`: a run whose steps lower a measure ends.
* `StackMachine.CallsOnward`, `StackMachine.Lacks`: programs whose calls lead on, and programs
  without a given operation; `Computer.CallsOnward`, `Computer.Uses`: the same of the slots of a
  computer.
* `Proceeds.pc_lt_or_ret`, `Proceeds.length_stack_le`: a step leads on or returns, and only a push
  brings an operand.
* `remaining`: the number of steps that are left at most without pushes.
* `execute_ends_of_callsOnward`: a computer whose calls lead on and that does not both push and
  return runs to an end. -/

namespace CellMachine

namespace StackMachine

variable {m m' : StackMachine} {ending : Ending}

/-! ## Measures -/

theorem Ends.ne_unfinished (h : m.Ends m' ending) : ending ≠ .unfinished := by
  cases h <;> exact nofun

/-- **A run whose steps lower a measure ends,** within one step more than the measure at its start.
It is enough that the steps do so from machines with a property that every step keeps. -/
theorem run_ends_of_measure (measure : StackMachine → Nat) {P : StackMachine → Prop}
    (hkeep : ∀ m m', P m → m.Proceeds m' → P m')
    (hlower : ∀ m m', P m → m.Proceeds m' → measure m' < measure m) (hm : P m) {limit : Nat}
    (hlimit : measure m < limit) : (m.run limit).2 ≠ .unfinished := by
  induction limit generalizing m with
  | zero => omega
  | succ limit ih =>
    rw [run]
    cases hstep : m.step with
    | next m' =>
      have hproceeds := proceeds_of_step hstep
      have hless := hlower m m' hm hproceeds
      exact ih (hkeep m m' hm hproceeds) (by omega)
    | halt m' ending => exact (ends_of_step hstep).ne_unfinished

/-! ## Ways back -/

/-- **Programs whose calls lead on:** a call goes to an address behind its own, or to none of the
program. -/
def CallsOnward (program : List (Option Instruction)) : Prop :=
  ∀ (j : Nat) (w : Word), program[j]? = some (some (.call w)) →
    j < w.toInt ∨ ¬ (0 ≤ w.toInt ∧ w.toInt < program.length)

/-- The program **lacks** an operation. -/
def Lacks (program : List (Option Instruction)) (op : Opcode) : Prop :=
  ∀ (j : Nat) (i : Instruction), program[j]? = some (some i) → i.opcode ≠ op

theorem Lacks.current?_ne {op : Opcode} (h : Lacks m.program op) {i : Instruction}
    (hi : i.opcode = op) : m.current? ≠ some i :=
  fun hcurrent => h m.pc i (getElem?_of_current? hcurrent) hi

/-- **A step leads on through the program,** unless it returns and takes an operand. -/
theorem Proceeds.pc_lt_or_ret (h : m.Proceeds m') (hcalls : CallsOnward m.program) :
    m.pc < m'.pc ∨ m.current? = some .ret ∧ m'.stack.length < m.stack.length := by
  cases h with
  | vacant | push | mult | print => exact Or.inl (Nat.lt_succ_self _)
  | call w target h hw hlt =>
    left
    -- the target is an address of the program, so it is one behind the call
    have honward := hcalls m.pc w (getElem?_of_current? h)
    unfold size at hlt
    dsimp only
    omega
  | ret w rest target h hstack =>
    refine Or.inr ⟨h, ?_⟩
    rw [hstack]
    exact Nat.lt_succ_self _

theorem Proceeds.length_stack_le (h : m.Proceeds m') (hpush : Lacks m.program .push) :
    m'.stack.length ≤ m.stack.length := by
  cases h with
  | vacant | call => exact Nat.le_refl _
  | push w h => exact absurd h (hpush.current?_ne rfl)
  | mult a b rest h hstack =>
    rw [hstack]
    exact Nat.le_succ _
  | print w rest h hstack | ret w rest target h hstack =>
    rw [hstack]
    exact Nat.le_succ _

/-! ## Without returns, and without pushes -/

theorem run_ends_of_lacks_ret (hcalls : CallsOnward m.program) (hret : Lacks m.program .ret)
    {limit : Nat} (hlimit : m.size < limit) : (m.run limit).2 ≠ .unfinished := by
  refine run_ends_of_measure (fun m' => m.size - m'.pc) (P := fun m' => m'.program = m.program)
    (fun m₁ m₂ hm₁ h => h.program_eq.trans hm₁) (fun m₁ m₂ hm₁ h => ?_) rfl (by omega)
  have hon : m₁.pc < m₂.pc := by
    rcases h.pc_lt_or_ret (hm₁ ▸ hcalls) with hlt | ⟨hcurrent, -⟩
    · exact hlt
    · exact absurd hcurrent ((hm₁ ▸ hret : Lacks m₁.program .ret).current?_ne rfl)
  have hle := h.pc_le
  have hsize : m₁.size = m.size := congrArg List.length hm₁
  omega

/-- What is left of a run without pushes, at most: a pass through the program for each operand, and
the rest of the present one. -/
def remaining (m : StackMachine) : Nat := m.stack.length * (m.size + 1) + (m.size - m.pc)

theorem Proceeds.remaining_lt (h : m.Proceeds m') (hcalls : CallsOnward m.program)
    (hpush : Lacks m.program .push) : m'.remaining < m.remaining := by
  have hsize : m'.size = m.size := congrArg List.length h.program_eq
  have hle := h.pc_le
  have hstack := h.length_stack_le hpush
  unfold remaining
  rw [hsize]
  rcases h.pc_lt_or_ret hcalls with hon | ⟨-, hless⟩
  · have hpasses : m'.stack.length * (m.size + 1) ≤ m.stack.length * (m.size + 1) :=
      Nat.mul_le_mul_right _ hstack
    omega
  · have hpasses : (m'.stack.length + 1) * (m.size + 1) ≤ m.stack.length * (m.size + 1) :=
      Nat.mul_le_mul_right _ hless
    rw [Nat.succ_mul] at hpasses
    omega

/-- Without pushes a run returns at most as often as there are operands. -/
theorem run_ends_of_lacks_push (hcalls : CallsOnward m.program) (hpush : Lacks m.program .push)
    {limit : Nat} (hlimit : m.remaining < limit) : (m.run limit).2 ≠ .unfinished :=
  run_ends_of_measure remaining (P := fun m' => m'.program = m.program)
    (fun _ _ hm₁ h => h.program_eq.trans hm₁)
    (fun _ _ hm₁ h => h.remaining_lt (hm₁ ▸ hcalls) (hm₁ ▸ hpush)) rfl hlimit

end StackMachine

/-! ## Computers -/

namespace Computer

/-- **Computers whose calls lead on:** each call in an addressable slot goes to an address behind
its own, or to none below the size. -/
def CallsOnward (c : Computer) : Prop :=
  ∀ j < c.size, ∀ w : Word, c.store.peek j = some (.instruction .call (some w)) →
    j < w.toInt ∨ ¬ (0 ≤ w.toInt ∧ w.toInt < c.size)

/-- The computer **uses** an operation: an instruction with it stands in an addressable slot. -/
def Uses (c : Computer) (op : Opcode) : Prop :=
  ∃ j < c.size, ∃ argument, c.store.peek j = some (.instruction op argument)

variable {c : Computer}

theorem Sound.callsOnward_machine (h : c.Sound) (hcalls : c.CallsOnward) :
    StackMachine.CallsOnward c.machine.program := by
  intro j w hj
  obtain ⟨hlt, hpeek⟩ := h.peek_of_getElem? hj
  have hlength : c.machine.program.length = c.size := h.size_machine
  rw [hlength]
  exact hcalls j hlt w hpeek

theorem Sound.lacks_machine (h : c.Sound) {op : Opcode} (huses : ¬ c.Uses op) :
    StackMachine.Lacks c.machine.program op := by
  rintro j i hj rfl
  obtain ⟨hlt, hpeek⟩ := h.peek_of_getElem? hj
  exact huses ⟨j, hlt, i.argument, hpeek⟩

/-- **Without a way back that it can take for ever, a computer runs to an end.** Let each call of a
reachable computer lead to an address behind its own or to none, and let its program be without
returns or without pushes. Then its run ends, from wherever it starts and whatever operands there
are, in a number of cycles that is bounded by the size and the number of the operands. -/
theorem execute_ends_of_callsOnward (h : c.Reachable) (hcalls : c.CallsOnward)
    (huses : ¬ c.Uses .ret ∨ ¬ c.Uses .push) :
    ∃ limit ≤ (c.store.length - c.size + 1) * (c.size + 1),
      (c.execute limit).ending ≠ .unfinished := by
  have hsound := h.sound
  have honward := hsound.callsOnward_machine hcalls
  have hsize := hsound.size_machine
  have hlength := hsound.length_machine
  have hoperands : c.store.length - c.size = c.machine.stack.length := by omega
  refine ⟨_, Nat.le_refl _, ?_⟩
  rw [hoperands, Nat.succ_mul, (hsound.execute_agrees _).ending_eq, StackMachine.execute_eq_ite]
  split
  · rcases huses with hret | hpush
    · exact StackMachine.run_ends_of_lacks_ret honward (hsound.lacks_machine hret) (by omega)
    · refine StackMachine.run_ends_of_lacks_push honward (hsound.lacks_machine hpush) ?_
      rw [StackMachine.remaining, hsize]
      omega
  · exact nofun

/-- A computer that calls its last slot and returns from there to its first, as long as there are
operands. Earlier runs have pushed two. -/
def circling : Computer :=
  ⟨⟨2, #[some (.instruction .call (some 1)), some (.instruction .ret none), some (.value 0),
    some (.value 0)]⟩, 0⟩

theorem reachable_circling : circling.Reachable :=
  ⟨2, _, [.insertOp .push (some 0), .insertOp .push (some 0), .setAddress 0, .execute,
    .setAddress 0, .insertOp .call (some 1), .insertOp .ret none, .setAddress 0], rfl,
    .cons rfl <| .cons rfl <| .cons rfl <| .cons ⟨3, by decide, rfl⟩ <| .cons rfl <| .cons rfl <|
      .cons rfl <| .cons rfl (.nil _)⟩

/-- Twice it is back at its first slot, and the third return finds no operand. -/
theorem execute_ends_of_callsOnward_circling :
    circling.Reachable ∧ circling.CallsOnward ∧ ¬ circling.Uses .push ∧
      ∃ limit ≤ 9, (circling.execute limit).ending ≠ .unfinished := by
  have hcalls : circling.CallsOnward := by
    intro j hj w hpeek
    have hlt : j < 2 := hj
    obtain rfl | rfl : j = 0 ∨ j = 1 := by omega
    · cases hpeek
      exact Or.inl (by decide)
    · cases hpeek
  have hpush : ¬ circling.Uses .push := by
    rintro ⟨j, hj, argument, hpeek⟩
    have hlt : j < 2 := hj
    obtain rfl | rfl : j = 0 ∨ j = 1 := by omega
    · cases hpeek
    · cases hpeek
  exact ⟨reachable_circling, hcalls, hpush,
    execute_ends_of_callsOnward reachable_circling hcalls (Or.inr hpush)⟩

end Computer

end CellMachine
