import CellMachine.Proofs.Computer.Refinement

/-! # What a run does to the program

The values that a run takes and those that it pushes share the store with the program, and a pop
from an exhausted stack vacates the last addressable slot. Yet a run that ends well leaves the
program as it was: the programs of reachable computers hold no values, so a pop that reaches into
the program makes its instruction fail. What is lost by a failure is at most the last slot, and only
to an instruction that is *starved*.

* `Config.Starved`: the state of a run before a multiplication that finds fewer than two cells, or
  a return or print that finds none.
* `Sound.peek_execute`: a run without a starved instruction changes no addressable slot.
* `program_of_execute`: what a run of a reachable computer does to its program. -/

namespace CellMachine

/-- **Starved states.** The instruction under the program counter wants more cells than there are
beyond the addressable slots. -/
def Config.Starved (k : Config) : Prop :=
  k.computer.store.peek k.computer.pc = some (.instruction .mult none) ∧
      k.computer.store.length < k.computer.size + 2 ∨
    (k.computer.store.peek k.computer.pc = some (.instruction .ret none) ∨
        k.computer.store.peek k.computer.pc = some (.instruction .print none)) ∧
      k.computer.store.length = k.computer.size

namespace StackMachine

variable {m m' : StackMachine} {ending : Ending}

theorem starved_config (h : m.starved) : m.config.Starved := by
  obtain ⟨i, hi, hlt⟩ := starved_iff.mp h
  have hpeek : m.config.computer.store.peek m.config.computer.pc = some i.cell := by
    refine (m.peek_computer (pc_lt_of_current? hi)).trans ?_
    rw [getElem?_of_current? hi]
    rfl
  have hsize : m.config.computer.size = m.size := m.size_computer
  have hlength : m.config.computer.store.length = m.size + m.stack.length := m.length_computer
  unfold Config.Starved
  rw [hpeek, hsize, hlength]
  cases i with
  | mult => exact Or.inl ⟨rfl, Nat.add_lt_add_left hlt _⟩
  | ret => exact Or.inr ⟨Or.inl rfl, by rw [Nat.lt_one_iff.mp hlt, Nat.add_zero]⟩
  | print => exact Or.inr ⟨Or.inr rfl, by rw [Nat.lt_one_iff.mp hlt, Nat.add_zero]⟩
  | call | stop | push => exact absurd hlt (Nat.not_lt_zero _)

theorem Ends.stack_of_starved (h : m.Ends m' ending) (hm : m.starved) : m'.stack = [] := by
  obtain ⟨i, hi, hlt⟩ := starved_iff.mp hm
  cases h with
  | passed hge => exact absurd (pc_lt_of_current? hi) (Nat.not_lt_of_le hge)
  | stop h' | call w h' =>
    rw [hi] at h'
    cases h'
    exact absurd hlt (Nat.not_lt_zero _)
  | mult h' | print h' | ret h' | retOut w rest h' =>
    rw [hi] at h'
    cases h'
    exact List.drop_eq_nil_of_le (Nat.le_of_lt hlt)

theorem peek_computer_congr {m m' : StackMachine} (h : m'.program = m.program) {i : Nat}
    (hi : i < m.size) : m'.computer.store.peek i = m.computer.store.peek i := by
  have hi' : i < m'.size := by unfold size; rw [h]; exact hi
  rw [m.peek_computer hi, m'.peek_computer hi', h]

theorem peek_vacate {i : Nat} (hi : i < m.size) :
    m.vacate.computer.store.peek i =
      if i = m.size - 1 then none else m.computer.store.peek i := by
  have hi' : i < m.vacate.size := by
    unfold size vacate; rw [length_vacateLast]; exact hi
  rw [m.peek_computer hi, m.vacate.peek_computer hi', vacate, vacateLast]
  unfold size at hi ⊢
  split
  · rename_i heq
    simp [← heq, hi]
  · rename_i hne
    rw [List.getElem?_set_ne (Ne.symm hne)]

end StackMachine

namespace Computer

variable {c : Computer}

/-- **The program after a run.** Every addressable slot is as it was, but for the last one when the
run ended at a starved instruction. -/
theorem Sound.peek_execute (h : c.Sound) (limit : Nat) :
    (∀ i < c.size, (c.execute limit).computer.store.peek i = c.store.peek i) ∨
      (∃ fault, (c.execute limit).ending = .failed fault) ∧
        (c.execute limit).computer.store.length = c.size ∧
        (∃ n k, c.start.after n = some k ∧ k.cycle = .halt (c.execute limit) ∧ k.Starved) ∧
        ∀ i < c.size, (c.execute limit).computer.store.peek i =
          if i = c.size - 1 then none else c.store.peek i := by
  -- every machine of the trace shows the program of `c`; only the last outcome can differ from it
  have hkept : ∀ m, c.InRun m → ∀ i < c.size, m.computer.store.peek i = c.store.peek i := by
    intro m hm i hi
    rw [← h.size_machine] at hi
    rw [StackMachine.peek_computer_congr hm.program_eq hi, h.computer_machine]
  rcases h.execute_cases limit with ⟨-, ho⟩ | ⟨n, m₁, m₂, ending, hafter, hrun, hends, hhalt, ho⟩ |
    ⟨m₁, hrun, ho⟩
  · rw [ho]
    exact Or.inl fun i _ => rfl
  · have hlast := hkept m₂ (hrun.ends hends)
    by_cases hm : m₁.starved
    · rw [if_pos hm] at ho
      have hsize : m₂.size = c.size := by
        rw [← h.size_machine]
        exact congrArg List.length (hrun.ends hends).program_eq
      refine Or.inr ⟨?_, ?_, ⟨n, m₁.config, hafter, hhalt, StackMachine.starved_config hm⟩, ?_⟩
      · rw [ho]
        exact hends.failed_of_starved hm
      · have hstack : m₂.vacate.stack = [] := hends.stack_of_starved hm
        rw [ho, StackMachine.length_computer, hstack, ← hsize]
        exact StackMachine.length_vacateLast m₂.program
      · intro i hi
        rw [ho, StackMachine.peek_vacate (hsize.symm ▸ hi), hlast i hi, hsize]
    · rw [if_neg hm] at ho
      rw [ho]
      exact Or.inl hlast
  · rw [ho]
    exact Or.inl (hkept m₁ hrun)

/-- **A run does not damage the program.** If it ends well, every addressable slot is as it was. If
it fails, every one but the last is as it was, and the last may have become vacant. That happens
only when the instruction that failed was starved, and then nothing is left beyond the addressable
slots. -/
theorem program_of_execute (h : c.Reachable) (limit : Nat) :
    (∀ payload, (c.execute limit).ending = .finished payload →
      ∀ i < c.size, (c.execute limit).computer.store.peek i = c.store.peek i) ∧
    ∀ fault, (c.execute limit).ending = .failed fault →
      (∀ i < c.size, i ≠ c.size - 1 →
        (c.execute limit).computer.store.peek i = c.store.peek i) ∧
      ((c.execute limit).computer.store.peek (c.size - 1) = c.store.peek (c.size - 1) ∨
        (c.execute limit).computer.store.peek (c.size - 1) = none) ∧
      ((c.execute limit).computer.store.peek (c.size - 1) ≠ c.store.peek (c.size - 1) →
        (∃ n k, c.start.after n = some k ∧ k.cycle = .halt (c.execute limit) ∧ k.Starved) ∧
        (c.execute limit).computer.store.length = c.size) := by
  have hlt : c.size - 1 < c.size := by
    have hpos := h.sound.size_pos
    omega
  rcases h.sound.peek_execute limit with hsame | ⟨⟨fault, hfault⟩, hlength, hstarved, hpeek⟩
  · refine ⟨fun _ _ => hsame, fun _ _ => ⟨fun i hi _ => hsame i hi, Or.inl (hsame _ hlt), ?_⟩⟩
    intro hne
    exact absurd (hsame _ hlt) hne
  · refine ⟨fun payload hfinished => ?_, fun _ _ => ⟨fun i hi hne => ?_, Or.inr ?_, fun _ => ?_⟩⟩
    · rw [hfault] at hfinished
      cases hfinished
    · rw [hpeek i hi, if_neg hne]
    · rw [hpeek _ hlt, if_pos rfl]
    · exact ⟨hstarved, hlength⟩

/-- A print in the last slot that finds nothing to print vacates the slot it stands in. -/
theorem program_of_execute_print_last :
    Reachable ⟨⟨1, #[some (.instruction .print none)]⟩, 0⟩ ∧
      ∃ n k, Config.after n (start ⟨⟨1, #[some (.instruction .print none)]⟩, 0⟩) = some k ∧
        k.cycle = .halt ⟨⟨⟨1, #[none]⟩, 0⟩, #[], .failed (.missingOutput 0)⟩ ∧ k.Starved := by
  have h : Reachable ⟨⟨1, #[some (.instruction .print none)]⟩, 0⟩ :=
    ⟨1, _, [.insertOp .print none, .setAddress 0], rfl, .cons rfl <| .cons rfl (.nil _)⟩
  exact ⟨h, (((program_of_execute h 1).2 (.missingOutput 0) (by decide)).2.2 (by decide)).1⟩

end Computer

end CellMachine
