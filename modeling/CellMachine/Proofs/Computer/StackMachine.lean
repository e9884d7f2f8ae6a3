import CellMachine.Computer.Run
import CellMachine.Proofs.Store.Layout

/-! # The stack machine

The stack machine is the computer with its program and its operands apart. The program is a list of
slots, each vacant or holding an instruction with the argument it needs, and nothing ever writes to
it. The operands are a stack of cells, the top first. An instruction that does not find the values it
takes, or has nowhere to continue, ends the run: the machine stays where it is and loses the cells
that the instruction takes, as far as there are any.

* `Instruction`, `Instruction.cell`: instructions, and the cells they are written as;
  `isInstruction_iff`: these are the well-formed cells.
* `StackMachine`, `StackMachine.step`, `StackMachine.run`, `StackMachine.execute`: the machine, one
  step of it, steps in succession, and a run with the test that it can start.
* `StackMachine.computer`, `StackMachine.config`: the computer that shows a machine.
* `cycle_config`: one cycle of that computer is one step of the machine. Only a *starved*
  instruction, one that wants more cells than the stack has, leaves a trace in the program: the last
  slot is vacant afterwards. -/

namespace CellMachine

/-! ## Instructions -/

/-- A cell is a **well-formed instruction** when it has an argument exactly for a call or a push. -/
def Cell.IsInstruction : Cell → Prop
  | .instruction op argument => argument.isSome ↔ op = .call ∨ op = .push
  | .bare _ => False

/-- A cell is a **value** when it is bare and has an argument. -/
def Cell.IsValue (cell : Cell) : Prop := ∃ w, cell = .value w

/-- **Instructions** with the arguments they need. -/
inductive Instruction where
  | mult
  | call (address : Word)
  | ret
  | stop
  | print
  | push (value : Word)
deriving DecidableEq, Repr

namespace Instruction

def opcode : Instruction → Opcode
  | mult => .mult
  | call _ => .call
  | ret => .ret
  | stop => .stop
  | print => .print
  | push _ => .push

def argument : Instruction → Option Word
  | call w | push w => some w
  | mult | ret | stop | print => none

/-- The cell that an instruction is written as. -/
def cell (i : Instruction) : Cell := .instruction i.opcode i.argument

/-- The number of cells that an instruction takes from the stack. -/
def operands : Instruction → Nat
  | mult => 2
  | ret | print => 1
  | call _ | stop | push _ => 0

theorem isInstruction_cell (i : Instruction) : i.cell.IsInstruction := by
  cases i <;> simp [cell, opcode, argument, Cell.IsInstruction]

@[simp]
theorem value?_cell (i : Instruction) : i.cell.value? = none := rfl

end Instruction

/-- The instruction that a cell holds, if it is a well-formed one. -/
def Cell.instruction? : Cell → Option Instruction
  | .instruction .mult none => some .mult
  | .instruction .call (some w) => some (.call w)
  | .instruction .ret none => some .ret
  | .instruction .stop none => some .stop
  | .instruction .print none => some .print
  | .instruction .push (some w) => some (.push w)
  | _ => none

@[simp]
theorem Cell.instruction?_cell (i : Instruction) : i.cell.instruction? = some i := by
  cases i <;> rfl

theorem Cell.isInstruction_iff {cell : Cell} :
    cell.IsInstruction ↔ ∃ i : Instruction, cell = i.cell := by
  constructor
  · intro h
    rcases cell with ⟨op, _ | w⟩ | argument
    · have hop : ¬ (op = .call ∨ op = .push) := by simpa [IsInstruction] using h
      cases op with
      | mult => exact ⟨.mult, rfl⟩
      | ret => exact ⟨.ret, rfl⟩
      | stop => exact ⟨.stop, rfl⟩
      | print => exact ⟨.print, rfl⟩
      | call => exact absurd (Or.inl rfl) hop
      | push => exact absurd (Or.inr rfl) hop
    · have hop : op = .call ∨ op = .push := by simpa [IsInstruction] using h
      rcases hop with rfl | rfl
      · exact ⟨.call w, rfl⟩
      · exact ⟨.push w, rfl⟩
    · exact h.elim
  · rintro ⟨i, rfl⟩
    exact i.isInstruction_cell

/-! ## The machine -/

/-- **Stack machines.** -/
structure StackMachine where
  program : List (Option Instruction)
  /-- The operands, the top first. -/
  stack : List Cell
  pc : Nat
  payload : Option Word
  printed : Array Word
deriving DecidableEq, Repr

/-- **What a step leads to:** a further machine, or the last machine and how the run ended. -/
inductive Move where
  | next (m : StackMachine)
  | halt (m : StackMachine) (ending : Ending)
deriving DecidableEq, Repr

namespace StackMachine

def size (m : StackMachine) : Nat := m.program.length

/-- The instruction `i` ends the run: the cells it takes are gone, and all else stays. -/
def fail (m : StackMachine) (i : Instruction) (fault : Fault) : Move :=
  .halt { m with stack := m.stack.drop i.operands } (.failed fault)

/-- Multiplication needs two values on top and replaces them by their product, which wraps around
into the range of words. -/
def mult (m : StackMachine) : Move :=
  match m.stack with
  | .bare (some a) :: .bare (some b) :: rest =>
    let product := Int64.ofInt (a.toInt * b.toInt)
    .next { m with stack := .value product :: rest, pc := m.pc + 1, payload := some product }
  | _ => m.fail .mult (.missingFactors m.pc)

/-- A call needs an address below the size. -/
def call (m : StackMachine) (address : Word) : Move :=
  if 0 ≤ address.toInt ∧ address.toInt < m.size then
    .next { m with pc := address.toInt.toNat, payload := some address }
  else m.fail (.call address) (.callOutOfBounds m.pc address)

/-- A return needs a value on top that is an address below the size. -/
def ret (m : StackMachine) : Move :=
  match m.stack with
  | .bare (some address) :: rest =>
    if 0 ≤ address.toInt ∧ address.toInt < m.size then
      .next { m with stack := rest, pc := address.toInt.toNat, payload := some address }
    else m.fail .ret (.returnOutOfBounds m.pc address)
  | _ => m.fail .ret (.missingReturn m.pc)

def print (m : StackMachine) : Move :=
  match m.stack with
  | .bare (some w) :: rest =>
    .next { m with stack := rest, pc := m.pc + 1, payload := some w, printed := m.printed.push w }
  | _ => m.fail .print (.missingOutput m.pc)

def perform (m : StackMachine) : Instruction → Move
  | .mult => m.mult
  | .call address => m.call address
  | .ret => m.ret
  | .stop => .halt m (.finished m.payload)
  | .print => m.print
  | .push w => .next { m with stack := .value w :: m.stack, pc := m.pc + 1 }

/-- **One step.** Vacant slots are passed over, and past the last slot the run is over. -/
def step (m : StackMachine) : Move :=
  match m.program[m.pc]? with
  | none => .halt m (.finished m.payload)
  | some none => .next { m with pc := m.pc + 1 }
  | some (some i) => m.perform i

/-- **Steps in succession,** at most `limit` of them: the last machine, and how the run ended. -/
def run : Nat → StackMachine → StackMachine × Ending
  | 0, m => (m, .unfinished)
  | limit + 1, m =>
    match m.step with
    | .next m' => run limit m'
    | .halt m' ending => (m', ending)

/-- **A whole run.** It starts at an instruction only. -/
def execute (limit : Nat) (m : StackMachine) : StackMachine × Ending :=
  match m.program[m.pc]? with
  | some (some _) => m.run limit
  | _ => (m, .failed (.noInstruction m.pc))

/-! ## The computer that shows a machine -/

def cells (program : List (Option Instruction)) : List (Option Cell) :=
  program.map (Option.map Instruction.cell)

/-- The program with its last slot vacated. -/
def vacateLast (program : List (Option Instruction)) : List (Option Instruction) :=
  program.set (program.length - 1) none

/-- **The computer that shows a machine:** the program, and the operands pushed behind it. -/
def computer (m : StackMachine) : Computer := ⟨Store.ofParts (cells m.program) m.stack, m.pc⟩

def config (m : StackMachine) : Config := ⟨m.computer, m.payload, m.printed⟩

/-- The machine with the last slot of its program vacated. -/
def vacate (m : StackMachine) : StackMachine :=
  { m with program := vacateLast m.program }

/-- Whether the instruction under the program counter wants more cells than the stack has. -/
def starved (m : StackMachine) : Bool :=
  match m.program[m.pc]? with
  | some (some i) => m.stack.length < i.operands
  | _ => false

end StackMachine

/-- The cycle of a computer that shows a move. With `vacated`, the last slot of the program is lost
at the end of the run. -/
def Move.cycle (vacated : Bool) : Move → Cycle
  | .next m => .next m.config
  | .halt m ending => .halt ⟨(if vacated then m.vacate else m).computer, m.printed, ending⟩

namespace StackMachine

variable (m : StackMachine) (program : List (Option Instruction))

/-! ### The slots of that computer -/

@[simp]
theorem length_cells : (cells program).length = program.length := by simp [cells]

@[simp]
theorem length_vacateLast : (vacateLast program).length = program.length := by simp [vacateLast]

@[simp]
theorem vacateLast_vacateLast : vacateLast (vacateLast program) = vacateLast program := by
  simp [vacateLast]

@[simp]
theorem size_computer : m.computer.size = m.size := length_cells m.program

theorem peek_computer {i : Nat} (h : i < m.size) :
    m.computer.store.peek i = (m.program[i]?).join.map Instruction.cell := by
  rw [computer, Store.peek_ofParts_of_lt _ _ ((length_cells _).symm ▸ h), cells, List.getElem?_map]
  rcases m.program[i]? with _ | _ | i <;> rfl

theorem vacateLast_cells : Store.vacateLast (cells program) = cells (vacateLast program) := by
  simp [Store.vacateLast, vacateLast, cells, List.map_set]

/-- Programs hold no values, so a pop that reaches into the program finds none. -/
theorem popValue_cells_nil : (Store.ofParts (cells program) []).popValue =
    (none, Store.ofParts (cells (vacateLast program)) []) := by
  have hnone : ((cells program).getLast?).join.bind Cell.value? = none := by
    rw [cells, List.getLast?_map]
    rcases program.getLast? with _ | _ | i <;> rfl
  rw [Store.popValue_ofParts_nil, hnone, vacateLast_cells]

/-! ### One cycle is one step -/

theorem cycle_fail_of_le (i : Instruction) (fault : Fault) (h : i.operands ≤ m.stack.length) :
    (m.fail i fault).cycle (m.stack.length < i.operands) =
      .halt ⟨⟨Store.ofParts (cells m.program) (m.stack.drop i.operands), m.pc⟩, m.printed,
        .failed fault⟩ := by
  have hfed : decide (m.stack.length < i.operands) = false := decide_eq_false (by omega)
  rw [hfed]
  rfl

theorem cycle_fail_of_lt (i : Instruction) (fault : Fault) (h : m.stack.length < i.operands) :
    (m.fail i fault).cycle (m.stack.length < i.operands) =
      .halt ⟨⟨Store.ofParts (cells (vacateLast m.program)) [], m.pc⟩, m.printed,
        .failed fault⟩ := by
  have hdrop : m.stack.drop i.operands = [] := List.drop_eq_nil_of_le (by omega)
  rw [decide_eq_true h, fail, hdrop]
  rfl

theorem mult_config :
    m.config.mult = m.mult.cycle (m.stack.length < Instruction.mult.operands) := by
  rcases m with ⟨program, stack, pc, payload, printed⟩
  simp only [config, computer, Config.mult]
  match stack with
  | [] =>
    have hfail := cycle_fail_of_lt ⟨program, [], pc, payload, printed⟩ .mult (.missingFactors pc)
      (by simp [Instruction.operands])
    -- both pops reach into the program, and the second vacates the same slot again
    rw [popValue_cells_nil]
    simp only [popValue_cells_nil, vacateLast_vacateLast]
    exact hfail.symm
  | [x] =>
    have hfail := cycle_fail_of_lt ⟨program, [x], pc, payload, printed⟩ .mult (.missingFactors pc)
      (by simp [Instruction.operands])
    simp only [Store.popValue_ofParts_cons, popValue_cells_nil]
    rcases x with _ | _ | a <;> exact hfail.symm
  | x :: y :: rest =>
    have hfail := cycle_fail_of_le ⟨program, x :: y :: rest, pc, payload, printed⟩ .mult
      (.missingFactors pc) (by simp [Instruction.operands])
    simp only [Store.popValue_ofParts_cons]
    rcases x with _ | _ | a
    · exact hfail.symm
    · exact hfail.symm
    rcases y with _ | _ | b
    · exact hfail.symm
    · exact hfail.symm
    -- the machine multiplies integers and wraps, the computer multiplies words
    have hproduct : Int64.ofInt (a.toInt * b.toInt) = a * b := by
      rw [Int64.ofInt_mul, Int64.ofInt_toInt, Int64.ofInt_toInt]
    simp only [mult, Move.cycle, config, computer, hproduct]
    rw [← Store.pushValue_ofParts]
    rfl

theorem call_config (address : Word) :
    m.config.call (some address) =
      (m.call address).cycle (m.stack.length < (Instruction.call address).operands) := by
  simp only [config, computer, Config.call, Store.capacity_ofParts, length_cells]
  by_cases h : 0 ≤ address.toInt ∧ address.toInt < m.size
  · have hindex : address.index? m.program.length = some address.toInt.toNat := if_pos h
    rw [hindex, call, if_pos h]
    rfl
  · have hindex : address.index? m.program.length = none := if_neg h
    rw [hindex, call, if_neg h]
    exact (m.cycle_fail_of_le (.call address) _ (Nat.zero_le _)).symm

theorem ret_config :
    m.config.ret = m.ret.cycle (m.stack.length < Instruction.ret.operands) := by
  rcases m with ⟨program, stack, pc, payload, printed⟩
  simp only [config, computer, Config.ret]
  match stack with
  | [] =>
    have hfail := cycle_fail_of_lt ⟨program, [], pc, payload, printed⟩ .ret (.missingReturn pc)
      (by simp [Instruction.operands])
    rw [popValue_cells_nil]
    exact hfail.symm
  | x :: rest =>
    have hfail := fun fault => (cycle_fail_of_le ⟨program, x :: rest, pc, payload, printed⟩
      .ret fault (by simp [Instruction.operands])).symm
    rw [Store.popValue_ofParts_cons]
    rcases x with _ | _ | address
    · exact hfail _
    · exact hfail _
    simp only [Cell.value?, Store.capacity_ofParts, length_cells, ret]
    by_cases h : 0 ≤ address.toInt ∧ address.toInt < program.length
    · have hindex : address.index? program.length = some address.toInt.toNat := if_pos h
      rw [hindex, if_pos (by exact h)]
      rfl
    · have hindex : address.index? program.length = none := if_neg h
      rw [hindex, if_neg (by exact h)]
      exact hfail _

theorem print_config :
    m.config.print = m.print.cycle (m.stack.length < Instruction.print.operands) := by
  rcases m with ⟨program, stack, pc, payload, printed⟩
  simp only [config, computer, Config.print]
  match stack with
  | [] =>
    have hfail := cycle_fail_of_lt ⟨program, [], pc, payload, printed⟩ .print (.missingOutput pc)
      (by simp [Instruction.operands])
    rw [popValue_cells_nil]
    exact hfail.symm
  | x :: rest =>
    have hfail := fun fault => (cycle_fail_of_le ⟨program, x :: rest, pc, payload, printed⟩
      .print fault (by simp [Instruction.operands])).symm
    rw [Store.popValue_ofParts_cons]
    rcases x with _ | _ | w
    · exact hfail _
    · exact hfail _
    · rfl

theorem perform_config (i : Instruction) :
    m.config.perform i.opcode i.argument =
      (m.perform i).cycle (m.stack.length < i.operands) := by
  cases i with
  | mult => exact m.mult_config
  | call address => exact m.call_config address
  | ret => exact m.ret_config
  | stop => rfl
  | print => exact m.print_config
  | push w =>
    simp only [perform, Move.cycle, config, computer, ← Store.pushValue_ofParts]
    rfl

/-- **One cycle of the computer is one step of the machine.** -/
theorem cycle_config : m.config.cycle = m.step.cycle m.starved := by
  unfold Config.cycle step starved
  by_cases hpc : m.pc < m.size
  · have hlt : m.config.computer.pc < m.config.computer.size := by
      rw [config, size_computer]; exact hpc
    have hpeek : m.config.computer.store.peek m.config.computer.pc =
        (m.program[m.pc]?).join.map Instruction.cell := m.peek_computer hpc
    rw [if_pos hlt, hpeek]
    rcases hi : m.program[m.pc]? with _ | _ | i
    · exact absurd (List.getElem?_eq_none_iff.mp hi) (Nat.not_le_of_lt hpc)
    · rfl
    · exact m.perform_config i
  · have hge : ¬ m.config.computer.pc < m.config.computer.size := by
      rw [config, size_computer]; exact hpc
    rw [if_neg hge, List.getElem?_eq_none (Nat.le_of_not_lt hpc)]
    rfl

end StackMachine

end CellMachine
