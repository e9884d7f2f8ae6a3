import CellMachine.Proofs.Computer.Preservation

/-! # Where a run ends

A run that fails leaves the program counter on the instruction that failed, and its fault names the
address and the operation. The instruction may be gone by then, because a starved instruction in the
last slot vacates the slot it stands in; so what the fault names is found in the program as it was
before the run. A run that ends well stands on a stop or behind the program, and running again does
nothing.

* `Fault.pc?`, `Fault.opcode?`, `Fault.target?`: what a fault of a run names.
* `Ends.fault_names`, `Ends.eq_of_finished`: the last step of a run that fails, and of one that ends
  well.
* `printed_run`, `printed_run_add`: what a run has printed stays printed.
* `Computer.Stranded`, `Computer.AtRest`: computers without an instruction to start with, and
  computers on which a run does nothing.
* `Computer.FailedAt`: what is known of a computer whose run has failed at an address.
* `Sound.failedAt`, `Sound.atRest`: so it is with a run that fails, and so with one that ends well.
* `execute_ends_where`: where the run of a reachable computer ends. -/

namespace CellMachine

/-! ## What a fault names -/

namespace Fault

/-- The address at which a run failed. -/
def pc? : Fault → Option Nat
  | notAnInstruction pc | noInstruction pc | missingFactors pc | missingTarget pc
  | callOutOfBounds pc _ | missingReturn pc | returnOutOfBounds pc _ | missingOutput pc => some pc
  | addressOutOfBounds _ _ | counterOutOfBounds _ _ | missingArgument _ | unknownMnemonic _ => none

/-- The operation that failed in a run. -/
def opcode? : Fault → Option Opcode
  | missingFactors _ => some .mult
  | missingTarget _ | callOutOfBounds _ _ => some .call
  | missingReturn _ | returnOutOfBounds _ _ => some .ret
  | missingOutput _ => some .print
  | notAnInstruction _ | noInstruction _ | addressOutOfBounds _ _ | counterOutOfBounds _ _
  | missingArgument _ | unknownMnemonic _ => none

/-- The address at which a call or a return was to continue. -/
def target? : Fault → Option Word
  | callOutOfBounds _ w | returnOutOfBounds _ w => some w
  | _ => none

end Fault

/-! ## The last step -/

namespace StackMachine

variable {m m' : StackMachine} {ending : Ending} {fault : Fault} {payload : Option Word}

/-- **A fault names the instruction that failed:** its address, its operation, and the address that
it led to if there is no such address in the program. -/
theorem Ends.fault_names (h : m.Ends m' (.failed fault)) :
    ∃ i, m.current? = some i ∧ fault.pc? = some m.pc ∧ fault.opcode? = some i.opcode ∧
      ∀ w, fault.target? = some w → ¬ (0 ≤ w.toInt ∧ w.toInt < m.size) := by
  cases h with
  | mult h | print h | ret h => exact ⟨_, h, rfl, rfl, nofun⟩
  | call w h hw | retOut w rest h hstack hw =>
    refine ⟨_, h, rfl, rfl, fun w' hw' => ?_⟩
    obtain rfl : w = w' := Option.some.inj hw'
    exact hw

theorem Ends.eq_of_finished (h : m.Ends m' (.finished payload)) :
    m' = m ∧ (m.size ≤ m.pc ∨ m.current? = some .stop) := by
  cases h with
  | passed h => exact ⟨rfl, Or.inl h⟩
  | stop h => exact ⟨rfl, Or.inr h⟩

/-! ## What is printed -/

theorem Ends.printed_eq (h : m.Ends m' ending) : m'.printed = m.printed := by
  cases h <;> rfl

theorem Proceeds.printed (h : m.Proceeds m') :
    ∃ values, m'.printed.toList = m.printed.toList ++ values := by
  cases h with
  | vacant | push | mult | call | ret => exact ⟨[], (List.append_nil _).symm⟩
  | print w rest h hstack => exact ⟨[w], Array.toList_push⟩

theorem printed_run (limit : Nat) (m : StackMachine) :
    ∃ values, (m.run limit).1.printed.toList = m.printed.toList ++ values := by
  induction limit generalizing m with
  | zero => exact ⟨[], (List.append_nil _).symm⟩
  | succ limit ih =>
    rw [run]
    cases hstep : m.step with
    | next m' =>
      obtain ⟨first, hfirst⟩ := (proceeds_of_step hstep).printed
      obtain ⟨later, hlater⟩ := ih m'
      exact ⟨first ++ later, by rw [hlater, hfirst, List.append_assoc]⟩
    | halt m' ending =>
      have hprinted := (ends_of_step hstep).printed_eq
      exact ⟨[], by rw [List.append_nil, ← hprinted]⟩

theorem printed_run_add (limit more : Nat) (m : StackMachine) : ∃ values,
    (m.run (limit + more)).1.printed.toList = (m.run limit).1.printed.toList ++ values := by
  induction limit generalizing m with
  | zero =>
    rw [Nat.zero_add]
    exact m.printed_run more
  | succ limit ih =>
    rw [Nat.succ_add, run, run]
    cases m.step with
    | next m' => exact ih m'
    | halt m' ending => exact ⟨[], (List.append_nil _).symm⟩

end StackMachine

/-! ## Computers -/

namespace Computer

/-- **Stranded computers** have no instruction to start with: the program counter stands behind the
addressable slots, or on a vacant one. -/
def Stranded (c : Computer) : Prop := c.size ≤ c.pc ∨ c.store.peek c.pc = none

/-- **A run that started has failed at an address.** An instruction with the operation that the
fault names stands there in the computer before the run, and the address that the fault names is not
below the size. -/
structure FailedAt (c : Computer) (fault : Fault) (pc : Nat) : Prop where
  pc_lt : pc < c.size
  opcode_eq : ∃ op argument, fault.opcode? = some op ∧
    c.store.peek pc = some (.instruction op argument)
  target_out : ∀ w, fault.target? = some w → ¬ (0 ≤ w.toInt ∧ w.toInt < c.size)

/-- **Computers at rest** stand just behind their addressable slots, where a run has nothing to
start with, or on a stop, where it stops at once. Neither changes or prints anything. -/
inductive AtRest (c : Computer) : Prop
  | passed (hpc : c.pc = c.size)
    (hrun : ∀ limit, c.execute limit = ⟨c, #[], .failed (.noInstruction c.size)⟩)
  | stopped (hpc : c.pc < c.size) (hstop : c.store.peek c.pc = some (.instruction .stop none))
    (hrun : ∀ limit, c.execute (limit + 1) = ⟨c, #[], .finished none⟩)

variable {c : Computer}

theorem canStart_eq_false_iff : c.canStart = false ↔ c.Stranded := by
  unfold canStart Stranded
  rw [Bool.and_eq_false_iff, decide_eq_false_iff_not, Nat.not_lt, Option.isSome_eq_false_iff,
    Option.isNone_iff_eq_none]

/-! ### Runs that do nothing -/

theorem execute_of_stranded (h : c.Stranded) (limit : Nat) :
    c.execute limit = ⟨c, #[], .failed (.noInstruction c.pc)⟩ := by
  rw [execute, canStart_eq_false_iff.mpr h]
  rfl

theorem atRest_of_passed (h : c.pc = c.size) : c.AtRest := by
  refine .passed h fun limit => ?_
  rw [execute_of_stranded (Or.inl (Nat.le_of_eq h.symm)), h]

theorem execute_of_stop (hpc : c.pc < c.size)
    (h : c.store.peek c.pc = some (.instruction .stop none)) (limit : Nat) :
    c.execute (limit + 1) = ⟨c, #[], .finished none⟩ := by
  have hstart : c.canStart = true := by
    unfold canStart
    rw [h, decide_eq_true hpc]
    rfl
  have hcycle : c.start.cycle = .halt ⟨c, #[], .finished none⟩ := by
    simp only [start, Config.cycle, if_pos hpc, h]
    rfl
  rw [execute, hstart, if_pos rfl, Config.run_succ, hcycle]

theorem atRest_of_stop (hpc : c.pc < c.size)
    (h : c.store.peek c.pc = some (.instruction .stop none)) : c.AtRest :=
  .stopped hpc h (execute_of_stop hpc h)

/-! ### Runs of sound computers -/

/-- **The run of a sound computer ends from a machine with its program,** which stands in the
program or just behind it. -/
theorem Sound.ends_of_execute (h : c.Sound) (limit : Nat) (hstart : ¬ c.Stranded)
    (hend : (c.execute limit).ending ≠ .unfinished) :
    ∃ m₁ m₂ : StackMachine, m₁.program = c.machine.program ∧ m₁.pc ≤ c.size ∧
      m₁.Ends m₂ (c.execute limit).ending ∧
      Agrees (c.execute limit) m₂ (c.execute limit).ending := by
  have hagrees := h.execute_agrees limit
  have hcan : c.canStart = true := by
    rw [← Bool.not_eq_false, canStart_eq_false_iff]
    exact hstart
  have hcurrent : c.machine.current?.isSome = true := by
    rw [← c.machine.canStart_computer, h.computer_machine]
    exact hcan
  rw [StackMachine.execute_eq_ite, if_pos hcurrent] at hagrees
  have hending := hagrees.ending_eq
  have hpc : c.pc ≤ c.size := Nat.le_of_lt (Nat.lt_of_not_le fun hle => hstart (Or.inl hle))
  obtain ⟨m₁, ⟨hprogram, hle⟩, hends⟩ := StackMachine.ends_of_run
    (P := fun m => m.program = c.machine.program ∧ m.pc ≤ c.size)
    (fun m m' hm hproceeds => by
      have hsize : m.size = c.size := (congrArg List.length hm.1).trans h.size_machine
      exact ⟨hproceeds.program_eq.trans hm.1, hsize ▸ hproceeds.pc_le⟩)
    ⟨rfl, hpc⟩ (hending ▸ hend)
  rw [← hending] at hagrees hends
  exact ⟨m₁, _, hprogram, hle, hends, hagrees⟩

theorem Sound.failedAt (h : c.Sound) {limit : Nat} {fault : Fault} (hstart : ¬ c.Stranded)
    (hfault : (c.execute limit).ending = .failed fault) :
    fault.pc? = some (c.execute limit).computer.pc ∧
      c.FailedAt fault (c.execute limit).computer.pc := by
  obtain ⟨m₁, m₂, hprogram, -, hends, hagrees⟩ :=
    h.ends_of_execute limit hstart (by rw [hfault]; exact nofun)
  have hpc : (c.execute limit).computer.pc = m₁.pc := hagrees.pc_eq.trans hends.pc_eq
  have hsize : m₁.size = c.size := (congrArg List.length hprogram).trans h.size_machine
  rw [hfault] at hends
  obtain ⟨i, hi, hat, hop, htarget⟩ := hends.fault_names
  have hslot := StackMachine.getElem?_of_current? hi
  rw [hprogram] at hslot
  obtain ⟨hlt, hpeek⟩ := h.peek_of_getElem? hslot
  rw [hpc]
  exact ⟨hat, hlt, ⟨i.opcode, i.argument, hop, hpeek⟩, hsize ▸ htarget⟩

theorem Sound.noInstruction_iff (h : c.Sound) {limit : Nat} {fault : Fault}
    (hfault : (c.execute limit).ending = .failed fault) :
    (∃ pc, fault = .noInstruction pc) ↔ c.Stranded := by
  constructor
  · rintro ⟨pc, rfl⟩
    by_contra hstart
    obtain ⟨op, argument, hop, -⟩ := (h.failedAt hstart hfault).2.opcode_eq
    cases hop
  · intro hstranded
    rw [execute_of_stranded hstranded] at hfault
    cases hfault
    exact ⟨c.pc, rfl⟩

theorem Sound.atRest (h : c.Sound) {limit : Nat} {payload : Option Word}
    (hok : (c.execute limit).ending = .finished payload) : (c.execute limit).computer.AtRest := by
  have hstart : ¬ c.Stranded := by
    intro hstranded
    rw [execute_of_stranded hstranded] at hok
    cases hok
  obtain ⟨m₁, m₂, hprogram, hle, hends, hagrees⟩ :=
    h.ends_of_execute limit hstart (by rw [hok]; exact nofun)
  rw [hok] at hends hagrees
  obtain ⟨rfl, hlast⟩ := hends.eq_of_finished
  have hsize : m₂.size = c.size := (congrArg List.length hprogram).trans h.size_machine
  rw [hagrees.computer_eq nofun]
  rcases hlast with hge | hstop
  · refine atRest_of_passed ?_
    rw [m₂.size_computer]
    show m₂.pc = m₂.size
    omega
  · have hlt := StackMachine.pc_lt_of_current? hstop
    have hpeek : m₂.computer.store.peek m₂.computer.pc = some (.instruction .stop none) := by
      refine (m₂.peek_computer hlt).trans ?_
      rw [StackMachine.getElem?_of_current? hstop]
      rfl
    exact atRest_of_stop (by rw [m₂.size_computer]; exact hlt) hpeek

/-- **Output only grows.** What is printed within a limit is where the output within any higher
limit starts. -/
theorem Sound.printed_execute_add (h : c.Sound) (limit more : Nat) : ∃ values,
    (c.execute (limit + more)).printed.toList = (c.execute limit).printed.toList ++ values := by
  rw [(h.execute_agrees limit).printed_eq, (h.execute_agrees (limit + more)).printed_eq,
    StackMachine.execute_eq_ite, StackMachine.execute_eq_ite]
  split
  · exact StackMachine.printed_run_add limit more c.machine
  · exact ⟨[], (List.append_nil _).symm⟩

/-- **Where the run of a reachable computer ends.** If it has nothing to start with, it fails for
that reason and changes and prints nothing. If it fails, its fault names the address where the
program counter is left. That is for want of an instruction only if there was none to start with;
otherwise an instruction with the operation that the fault names stood there before the run, and a
jump that failed led to no address below the size. If it ends well, it leaves the computer at rest.
What has been printed at some time of a run stays, and only values are printed behind it. -/
theorem execute_ends_where (h : c.Reachable) (limit : Nat) :
    (c.Stranded → c.execute limit = ⟨c, #[], .failed (.noInstruction c.pc)⟩) ∧
    (∀ fault, (c.execute limit).ending = .failed fault →
      fault.pc? = some (c.execute limit).computer.pc ∧
      ((∃ pc, fault = .noInstruction pc) ↔ c.Stranded) ∧
      (¬ c.Stranded → c.FailedAt fault (c.execute limit).computer.pc)) ∧
    (∀ payload, (c.execute limit).ending = .finished payload →
      (c.execute limit).computer.size = c.size ∧ (c.execute limit).computer.AtRest) ∧
    ∀ more, ∃ values : List Word,
      (c.execute (limit + more)).printed.toList = (c.execute limit).printed.toList ++ values := by
  have hsound := h.sound
  refine ⟨fun hstranded => execute_of_stranded hstranded limit, fun fault hfault => ?_,
    fun payload hok => ⟨(hsound.execute limit).2, hsound.atRest hok⟩,
    hsound.printed_execute_add limit⟩
  refine ⟨?_, hsound.noInstruction_iff hfault, fun hstart => (hsound.failedAt hstart hfault).2⟩
  by_cases hstart : c.Stranded
  · rw [execute_of_stranded hstart] at hfault ⊢
    cases hfault
    rfl
  · exact (hsound.failedAt hstart hfault).1

/-- A computer that prints the value `7` and is then to print once more, from its last slot. -/
def printingTwice : Computer :=
  ⟨⟨3, #[some (.instruction .push (some 7)), some (.instruction .print none),
    some (.instruction .print none)]⟩, 0⟩

theorem reachable_printingTwice : printingTwice.Reachable :=
  ⟨3, _, [.insertOp .push (some 7), .insertOp .print none, .insertOp .print none, .setAddress 0],
    rfl, .cons rfl <| .cons rfl <| .cons rfl <| .cons rfl (.nil _)⟩

/-- The second print vacates the slot it stands in, and its fault names what stood there before. -/
theorem execute_ends_where_printingTwice :
    printingTwice.Reachable ∧
      printingTwice.execute 3 = ⟨⟨⟨3, #[some (.instruction .push (some 7)),
        some (.instruction .print none), none]⟩, 2⟩, #[7], .failed (.missingOutput 2)⟩ ∧
      printingTwice.FailedAt (.missingOutput 2) 2 := by
  have hstart : ¬ printingTwice.Stranded := by
    rintro (hpc | hslot)
    · exact absurd hpc (by decide)
    · cases hslot
  refine ⟨reachable_printingTwice, by decide, ?_⟩
  have hends := execute_ends_where reachable_printingTwice 3
  exact (hends.2.1 (.missingOutput 2) (by decide)).2.2 hstart

end Computer

end CellMachine
