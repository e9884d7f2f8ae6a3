import CellMachine.Proofs.Computer.Operations
import CellMachine.Proofs.Computer.Trace
import Mathlib.Tactic.ByContra

/-! # Sound computers

A computer is *sound* when its store has every addressable slot, its program counter is not past the
last slot, its addressable slots are vacant or hold well-formed instructions, and what is pushed
behind them are values and well-formed instructions. The sound computers are exactly those that show
a stack machine (`Sound.computer_machine`, `StackMachine.Good.sound`), and every operation keeps
them so, whether it succeeds or fails (`Sound.setAddress`, `Sound.insertOp`, `Sound.insert`,
`Sound.execute`). -/

namespace CellMachine

/-- **The machine that a computer shows:** its addressable slots as the program, and what is pushed
behind them as the operands. -/
def Computer.machine (c : Computer) : StackMachine :=
  ⟨c.store.region.map fun slot => slot.bind Cell.instruction?, c.store.stack, c.pc, none, #[]⟩

/-- **Sound computers.** -/
structure Computer.Sound (c : Computer) : Prop where
  size_pos : 1 ≤ c.size
  size_le : c.size ≤ c.store.length
  pc_le : c.pc ≤ c.store.length
  program : ∀ i < c.size, ∀ cell, c.store.peek i = some cell → cell.IsInstruction
  operands : ∀ i, c.size ≤ i → i < c.store.length →
    ∃ cell, c.store.peek i = some cell ∧ (cell.IsValue ∨ cell.IsInstruction)

/-- Machines that sound computers show. -/
structure StackMachine.Good (m : StackMachine) : Prop where
  size_pos : 1 ≤ m.size
  pc_le : m.pc ≤ m.size + m.stack.length
  stack : ∀ cell ∈ m.stack, cell.IsValue ∨ cell.IsInstruction

/-! ## Sound computers and machines -/

theorem StackMachine.length_computer (m : StackMachine) :
    m.computer.store.length = m.size + m.stack.length := by
  rw [computer, Store.length_ofParts, length_cells, size]

theorem StackMachine.Good.sound {m : StackMachine} (h : m.Good) : m.computer.Sound where
  size_pos := by rw [m.size_computer]; exact h.size_pos
  size_le := by rw [m.size_computer, m.length_computer]; omega
  pc_le := by rw [m.length_computer]; exact h.pc_le
  program i hi cell hcell := by
    rw [m.size_computer] at hi
    rw [m.peek_computer hi] at hcell
    obtain ⟨i, -, rfl⟩ := Option.map_eq_some_iff.mp hcell
    exact i.isInstruction_cell
  operands i hle hlt := by
    rw [m.size_computer] at hle
    rw [m.length_computer] at hlt
    obtain ⟨j, rfl⟩ := Nat.exists_eq_add_of_le hle
    have hj : j < m.stack.reverse.length := by rw [List.length_reverse]; omega
    refine ⟨m.stack.reverse[j], ?_, h.stack _ (List.mem_reverse.mp (List.getElem_mem hj))⟩
    have hpeek := Store.peek_ofParts_add (StackMachine.cells m.program) m.stack j
    rw [StackMachine.length_cells, List.getElem?_eq_getElem hj] at hpeek
    exact hpeek

namespace Computer

variable {c c' : Computer}

theorem Sound.laidOut (h : c.Sound) : c.store.LaidOut where
  capacity_le := h.size_le
  occupied i hle hlt := by
    obtain ⟨cell, hcell, -⟩ := h.operands i hle hlt
    exact ⟨cell, hcell⟩

/-- **A sound computer is the one that shows its machine.** -/
theorem Sound.computer_machine (h : c.Sound) : c.machine.computer = c := by
  have hslot : ∀ slot ∈ c.store.region,
      (slot.bind Cell.instruction?).map Instruction.cell = slot := by
    intro slot hslot
    rcases slot with _ | cell
    · rfl
    · obtain ⟨i, hi, hpeek⟩ := Store.mem_region.mp hslot
      obtain ⟨i, rfl⟩ := Cell.isInstruction_iff.mp (h.program i hi cell hpeek)
      simp
  have hcells : StackMachine.cells c.machine.program = c.store.region := by
    rw [StackMachine.cells, machine, List.map_map]
    exact (List.map_congr_left hslot).trans (List.map_id' _)
  rw [StackMachine.computer, hcells]
  exact congrArg (Computer.mk · c.pc) (Store.ofParts_region_stack h.laidOut)

theorem Sound.start_eq (h : c.Sound) : c.start = c.machine.config := by
  rw [StackMachine.config, h.computer_machine]
  rfl

theorem Sound.size_machine (h : c.Sound) : c.machine.size = c.size := by
  rw [← c.machine.size_computer, h.computer_machine]

theorem Sound.length_machine (h : c.Sound) :
    c.store.length = c.size + c.machine.stack.length := by
  rw [← h.size_machine, ← c.machine.length_computer, h.computer_machine]

theorem Sound.getElem?_machine (h : c.Sound) {i : Nat} (hi : i < c.size) :
    c.machine.program[i]? = some ((c.store.peek i).bind Cell.instruction?) := by
  have hcapacity : i < c.store.capacity := hi
  have hlt : i < c.store.slots.size := Nat.lt_of_lt_of_le hi h.size_le
  have hregion : c.store.region[i]? = some c.store.slots[i] := by
    rw [Store.region, List.getElem?_take_of_lt hcapacity, Array.getElem?_toList,
      Array.getElem?_eq_getElem hlt]
  have hpeek : c.store.peek i = c.store.slots[i] := by
    rw [Store.peek, Array.getElem?_eq_getElem hlt, Option.join_some]
  rw [machine, List.getElem?_map, hregion, hpeek]
  rfl

theorem Sound.peek_of_getElem? (h : c.Sound) {j : Nat} {i : Instruction}
    (hi : c.machine.program[j]? = some (some i)) : j < c.size ∧ c.store.peek j = some i.cell := by
  obtain ⟨hlt, -⟩ := List.getElem?_eq_some_iff.mp hi
  have hpeek := c.machine.peek_computer hlt
  rw [h.computer_machine, hi] at hpeek
  exact ⟨h.size_machine ▸ hlt, hpeek⟩

theorem Sound.good_machine (h : c.Sound) : c.machine.Good where
  size_pos := by rw [h.size_machine]; exact h.size_pos
  pc_le := by rw [h.size_machine, ← h.length_machine]; exact h.pc_le
  stack cell hcell := by
    obtain ⟨i, hle, hpeek⟩ := Store.mem_stack.mp hcell
    have hlt : i < c.store.length := by
      by_contra hge
      rw [Store.peek_of_length_le (by omega)] at hpeek
      cases hpeek
    obtain ⟨cell', hpeek', hgood⟩ := h.operands i hle hlt
    rw [hpeek] at hpeek'
    cases hpeek'
    exact hgood

/-! ## What the operations keep -/

theorem Sound.setAddress (h : c.Sound) {w : Word} (hset : c.setAddress w = .ok c') :
    c'.Sound ∧ c'.size = c.size := by
  unfold Computer.setAddress at hset
  split at hset
  · rename_i pc hpc
    cases hset
    obtain ⟨hlt, -⟩ := Word.index?_eq_some_iff.mp hpc
    have hle := h.size_le
    exact ⟨{ h with pc_le := by simp only; omega }, rfl⟩
  · cases hset

theorem Sound.insertOp (h : c.Sound) {op : Opcode} {argument : Option Word}
    (hins : c.insertOp op argument = .ok c') : c'.Sound ∧ c'.size = c.size := by
  obtain ⟨cell, store, hcell, hstore, rfl⟩ := insertOp_eq_ok_iff.mp hins
  have hinstr := isInstruction_of_encode hcell
  have hsize : size ⟨store, c.pc + 1⟩ = c.size := Store.capacity_insert hstore
  have hlen := Store.length_insert hstore
  have hpeek := Store.peek_insert hstore
  have hlt := Store.lt_of_insert hstore
  refine ⟨⟨?_, ?_, ?_, ?_, ?_⟩, hsize⟩
  · rw [hsize]; exact h.size_pos
  · rw [hsize, hlen]; exact h.size_le
  · rw [hlen]; exact hlt
  -- the slot that was written holds a well-formed instruction, on either side of the size
  · intro i hi cell' hcell'
    rw [hsize] at hi
    rw [hpeek] at hcell'
    split at hcell'
    · cases hcell'
      exact hinstr
    · exact h.program i hi cell' hcell'
  · intro i hle hlt'
    rw [hsize] at hle
    rw [hlen] at hlt'
    rw [hpeek]
    split
    · exact ⟨cell, rfl, Or.inr hinstr⟩
    · exact h.operands i hle hlt'

theorem Sound.insert (h : c.Sound) {mnemonic : Text} {argument : Option Word}
    (hins : c.insert mnemonic argument = .ok c') : c'.Sound ∧ c'.size = c.size := by
  unfold Computer.insert at hins
  split at hins
  · exact h.insertOp hins
  · cases hins

/-! ## Runs -/

/-- The machines that a run of `c` passes through have the program of `c`, and good operands. -/
structure InRun (c : Computer) (m : StackMachine) : Prop where
  program_eq : m.program = c.machine.program
  good : m.Good

theorem InRun.step (m m' : StackMachine) (h : c.InRun m) (hm : m.Proceeds m') : c.InRun m' := by
  have hsize : m'.size = m.size := congrArg List.length hm.program_eq
  refine ⟨hm.program_eq.trans h.program_eq, hsize ▸ h.good.size_pos, ?_, ?_⟩
  · have hpc := hm.pc_le
    omega
  · intro cell hcell
    rcases hm.mem_stack hcell with hvalue | hold
    · exact Or.inl hvalue
    · exact h.good.stack cell hold

theorem InRun.ends {m m' : StackMachine} {ending : Ending} (h : c.InRun m)
    (hm : m.Ends m' ending) : c.InRun m' := by
  have hsize : m'.size = m.size := congrArg List.length hm.program_eq
  refine ⟨hm.program_eq.trans h.program_eq, hsize ▸ h.good.size_pos, ?_,
    fun cell hcell => h.good.stack cell (hm.mem_stack hcell)⟩
  rcases hm.pc_lt_or_eq with hlt | rfl
  · rw [hm.pc_eq, hsize]
    omega
  · exact h.good.pc_le

/-- **How a run of a sound computer ends.** It cannot start, or it ends where a machine of its trace
does, or it is cut off at its limit. -/
theorem Sound.execute_cases (h : c.Sound) (limit : Nat) :
    c.canStart = false ∧ c.execute limit = ⟨c, #[], .failed (.noInstruction c.pc)⟩ ∨
      (∃ n m₁ m₂ ending, c.start.after n = some m₁.config ∧ c.InRun m₁ ∧ m₁.Ends m₂ ending ∧
        m₁.config.cycle = .halt (c.execute limit) ∧
        c.execute limit =
          ⟨(if m₁.starved then m₂.vacate else m₂).computer, m₂.printed, ending⟩) ∨
      ∃ m₁, c.InRun m₁ ∧ c.execute limit = ⟨m₁.computer, m₁.printed, .unfinished⟩ := by
  unfold execute
  cases hstart : c.canStart with
  | false => exact Or.inl ⟨rfl, rfl⟩
  | true =>
    rw [if_pos rfl, h.start_eq]
    exact Or.inr (StackMachine.run_config_cases InRun.step ⟨rfl, h.good_machine⟩ limit)

theorem good_vacate {m : StackMachine} (h : m.Good) : m.vacate.Good := by
  have hsize : m.vacate.size = m.size := StackMachine.length_vacateLast m.program
  exact ⟨hsize ▸ h.size_pos, hsize ▸ h.pc_le, h.stack⟩

theorem Sound.execute (h : c.Sound) (limit : Nat) :
    (c.execute limit).computer.Sound ∧ (c.execute limit).computer.size = c.size := by
  rcases h.execute_cases limit with ⟨-, ho⟩ | ⟨n, m₁, m₂, ending, -, hrun, hends, -, ho⟩ |
    ⟨m₁, hrun, ho⟩
  · rw [ho]
    exact ⟨h, rfl⟩
  · have hlast := hrun.ends hends
    have hsize : m₂.size = c.size := by
      rw [← h.size_machine]
      exact congrArg List.length hlast.program_eq
    rw [ho]
    split
    · refine ⟨(good_vacate hlast.good).sound, ?_⟩
      rw [StackMachine.size_computer, ← hsize]
      exact StackMachine.length_vacateLast m₂.program
    · exact ⟨hlast.good.sound, by rw [StackMachine.size_computer, hsize]⟩
  · rw [ho]
    refine ⟨hrun.good.sound, ?_⟩
    rw [StackMachine.size_computer, ← h.size_machine]
    exact congrArg List.length hrun.program_eq

end Computer

end CellMachine
