import CellMachine.Program
import CellMachine.Proofs.Computer.Refinement
import CellMachine.Proofs.Store.Split

/-! # Straight-line programs

A program without calls and returns is a *straight line*. It needs no computer: reading it once from
left to right, with a list of values at hand, gives its result. The computer it is loaded into has
its instructions and its values in one store, passes over the vacant slots behind the program, and
takes back instructions of its own when values are wanting; none of this shows in the result.

* `Straight`, `Straight.of?`: the instructions that do not jump, and the ones that orders of a
  program stand for.
* `Worksheet`, `Worksheet.step`: the values at hand, and what an instruction does with them.
* `Program.loadFault?`: why a program cannot be loaded. `Program.straightLine`: the result of a
  straight line, by a left fold over its instructions.
* `load_straight`: what loading a straight line gives.
* `step_machine`, `run_machine`: one step of a stack machine is one step of the fold, and its run is
  the whole fold. `start_loading`: so is the run of a computer that the straight line is loaded into.
* `run_of_fits`: what running a straight line gives that can be loaded.
* `run_eq_straightLine`: running a straight line gives the result of the fold. -/

namespace CellMachine

/-! ## The fold -/

/-- **Instructions that do not jump.** -/
inductive Straight where
  | push (value : Word)
  | mult
  | print
  | stop
deriving DecidableEq, Repr

namespace Straight

def instruction : Straight → Instruction
  | push w => .push w
  | mult => .mult
  | print => .print
  | stop => .stop

/-- The instruction that an operation with its argument stands for, if it does not jump. An argument
that the operation does not take is dropped. -/
def of? : Opcode × Option Word → Option Straight
  | (.push, some w) => some (push w)
  | (.mult, _) => some mult
  | (.print, _) => some print
  | (.stop, _) => some stop
  | (.push, none) | (.call, _) | (.ret, _) => none

end Straight

/-- **Worksheets.** The values at hand, the top first, with what was produced and printed so far. -/
structure Worksheet where
  values : List Word
  payload : Option Word
  printed : Array Word
deriving DecidableEq, Repr

namespace Worksheet

/-- The worksheet to start with. -/
def blank : Worksheet := ⟨[], none, #[]⟩

/-- **One instruction of the fold,** which stands at index `i`. It leads to a further worksheet, or to
the result. -/
def step (e : Worksheet) (i : Nat) : Straight → Except (Except Fault Program.Summary) Worksheet
  | .push w => .ok { e with values := w :: e.values }
  | .mult =>
    match e.values with
    | a :: b :: values =>
      let product := Int64.ofInt (a.toInt * b.toInt)
      .ok { e with values := product :: values, payload := some product }
    | _ => .error (.error (.missingFactors i))
  | .print =>
    match e.values with
    | w :: values => .ok ⟨values, some w, e.printed.push w⟩
    | [] => .error (.error (.missingOutput i))
  | .stop => .error (.ok ⟨e.payload, e.printed, i⟩)

/-- **The fold** over instructions with their indices. -/
def fold (e : Worksheet) (code : List (Straight × Nat)) :
    Except (Except Fault Program.Summary) Worksheet :=
  code.foldlM (fun e (s, i) => e.step i s) e

theorem fold_cons (e : Worksheet) (s : Straight) (i : Nat) (code : List (Straight × Nat)) :
    e.fold ((s, i) :: code) =
      match e.step i s with
      | .ok e' => e'.fold code
      | .error r => .error r := by
  unfold fold
  rw [List.foldlM_cons]
  dsimp only
  cases e.step i s <;> rfl

/-- The result of a fold. After the last instruction the program counter stands at the size. -/
def result (size : Nat) :
    Except (Except Fault Program.Summary) Worksheet → Except Fault Program.Summary
  | .ok e => .ok ⟨e.payload, e.printed, size⟩
  | .error r => r

end Worksheet

namespace Program

/-- Whether the operation at index `i` cannot be loaded into a computer of a given size. -/
def blocks (size : Nat) : (Opcode × Option Word) × Nat → Bool
  | (order, i) => order == (.push, none) || i == size

/-- **Why operations with their indices cannot be loaded:** the first of them that is a push without
an argument, or for which there is no slot. -/
def loadFault? (size : Nat) (orders : List ((Opcode × Option Word) × Nat)) : Option Fault :=
  (orders.find? (blocks size)).map fun (order, _) =>
    if order = (.push, none) then .missingArgument .push else .addressOutOfBounds size size

/-- **The result of a straight line** on a computer of a given size. -/
def straightLine (size : Nat) (program : Program) : Except Fault Summary :=
  match loadFault? size program.zipIdx with
  | some fault => .error fault
  | none =>
    if program = [] then .error (.noInstruction 0)
    else Worksheet.result size (Worksheet.blank.fold (program.filterMap Straight.of?).zipIdx)

end Program

/-! ## Loading -/

/-- The slots of a program that is loaded and has `k` vacant slots behind it. -/
def Straight.slots (code : List Straight) (k : Nat) : List (Option Instruction) :=
  code.map (fun s => some s.instruction) ++ List.replicate k none

/-- The computer that a straight line is being loaded into: some instructions are there, `k` slots are
vacant, and the program counter stands at the first of these. -/
def Computer.loading (code : List Straight) (k : Nat) : Computer :=
  ⟨Store.ofParts (StackMachine.cells (Straight.slots code k)) [], code.length⟩

namespace Straight

variable {order : Opcode × Option Word} {s : Straight}

theorem encode_of_of? (h : of? order = some s) :
    Computer.encode order.1 order.2 = .ok s.instruction.cell := by
  rcases order with ⟨op, _ | w⟩ <;> cases op <;> cases h <;> rfl

theorem of?_eq_none (h : of? order = none) (hcall : order.1 ≠ .call) (hret : order.1 ≠ .ret) :
    order = (.push, none) := by
  rcases order with ⟨op, _ | w⟩ <;> cases op <;> simp_all [of?]

@[simp]
theorem length_slots (code : List Straight) (k : Nat) :
    (slots code k).length = code.length + k := by simp [slots]

end Straight

section Loading

variable {order : Opcode × Option Word} {s : Straight}

theorem insertOp_loading_succ (h : Straight.of? order = some s) (code : List Straight) (k : Nat) :
    (Computer.loading code (k + 1)).insertOp order.1 order.2 =
      .ok (Computer.loading (code ++ [s]) k) := by
  rw [Computer.loading, Computer.insertOp, Straight.encode_of_of? h]
  dsimp only
  rw [Store.insert, if_pos (by simp)]
  simp [Except.map, Computer.loading, Store.ofParts, StackMachine.cells, Straight.slots,
    List.replicate_succ]

theorem insertOp_loading_zero (h : Straight.of? order = some s) (code : List Straight) :
    (Computer.loading code 0).insertOp order.1 order.2 =
      .error (.addressOutOfBounds code.length code.length) := by
  rw [Computer.loading, Computer.insertOp, Straight.encode_of_of? h]
  dsimp only
  rw [Store.insert, if_neg (by simp)]
  simp [Except.map]

namespace Program

theorem loadFault?_cons (size : Nat) (order : Opcode × Option Word) (i : Nat)
    (orders : List ((Opcode × Option Word) × Nat)) :
    loadFault? size ((order, i) :: orders) =
      if order = (.push, none) then some (.missingArgument .push)
      else if i = size then some (.addressOutOfBounds size size)
      else loadFault? size orders := by
  unfold loadFault?
  by_cases horder : order = (.push, none)
  · simp [blocks, horder]
  · by_cases hi : i = size
    · simp [blocks, horder, hi]
    · simp [blocks, horder, hi]

/-- A straight line that can be loaded has an instruction for each operation, so the indices of its
instructions are those of its operations. -/
theorem length_filterMap_of? {size i : Nat} {program : Program}
    (h : ∀ order ∈ program, order.1 ≠ .call ∧ order.1 ≠ .ret)
    (hfault : loadFault? size (program.zipIdx i) = none) :
    (program.filterMap Straight.of?).length = program.length := by
  induction program generalizing i with
  | nil => rfl
  | cons order program ih =>
    obtain ⟨⟨hcall, hret⟩, hrest⟩ := List.forall_mem_cons.mp h
    rw [List.zipIdx_cons, loadFault?_cons] at hfault
    split at hfault
    · cases hfault
    · rename_i hpush
      split at hfault
      · cases hfault
      · cases hof : Straight.of? order with
        | none => exact absurd (Straight.of?_eq_none hof hcall hret) hpush
        | some s => simp [hof, ih hrest hfault]

/-- **Loading a straight line** fails as foretold, or puts its instructions behind those that are
there already. -/
theorem load_straight (program : Program)
    (h : ∀ order ∈ program, order.1 ≠ .call ∧ order.1 ≠ .ret) (code : List Straight) (k : Nat) :
    match loadFault? (code.length + k) (program.zipIdx code.length) with
    | some fault => load (.loading code k) program = .error fault
    | none => ∃ j, code.length + k = (code ++ program.filterMap Straight.of?).length + j ∧
        load (.loading code k) program =
          .ok (.loading (code ++ program.filterMap Straight.of?) j) := by
  induction program generalizing code k with
  | nil => exact ⟨k, by simp, by simp [load]⟩
  | cons order program ih =>
    obtain ⟨⟨hcall, hret⟩, hrest⟩ := List.forall_mem_cons.mp h
    rw [List.zipIdx_cons, loadFault?_cons]
    cases hof : Straight.of? order with
    | none =>
      obtain rfl := Straight.of?_eq_none hof hcall hret
      rfl
    | some s =>
      have hpush : order ≠ (.push, none) := by
        rintro rfl
        cases hof
      rw [if_neg hpush, load.eq_def]
      cases k with
      | zero => simp [insertOp_loading_zero hof]
      | succ k =>
        have hne : code.length ≠ code.length + (k + 1) := by omega
        have hlength : (code ++ [s]).length = code.length + 1 := by simp
        have hsize : code.length + (k + 1) = (code ++ [s]).length + k := by omega
        have hcode : code ++ (order :: program).filterMap Straight.of? =
            (code ++ [s]) ++ program.filterMap Straight.of? := by simp [hof]
        rw [if_neg hne, hsize, hcode, ← hlength]
        dsimp only
        rw [insertOp_loading_succ hof]
        exact ih hrest (code ++ [s]) k

end Program

end Loading

/-! ## Running -/

/-- The machine that runs a program with the values of a worksheet. -/
def Worksheet.machine (e : Worksheet) (program : List (Option Instruction)) (pc : Nat) :
    StackMachine :=
  ⟨program, e.values.map .value, pc, e.payload, e.printed⟩

/-- What the end of a machine's run gives. -/
def Program.conclude : StackMachine × Ending → Except Abort (Except Fault Program.Summary)
  | (m, .finished payload) => .ok (.ok ⟨payload, m.printed, m.pc⟩)
  | (_, .failed fault) => .ok (.error fault)
  | (_, .unfinished) => .error .outOfCycles

namespace Worksheet

open Program (conclude)

variable (e : Worksheet) {program : List (Option Instruction)} {pc : Nat}

theorem step_machine {s : Straight} (h : program[pc]? = some (some s.instruction)) (limit : Nat) :
    conclude ((e.machine program pc).run (limit + 1)) =
      match e.step pc s with
      | .ok e' => conclude ((e'.machine program (pc + 1)).run limit)
      | .error result => .ok result := by
  have hstep : (e.machine program pc).step = (e.machine program pc).perform s.instruction := by
    simp [StackMachine.step, machine, h]
  rw [StackMachine.run, hstep]
  rcases e with ⟨values, payload, printed⟩
  cases s with
  | push w => rfl
  | mult => rcases values with _ | ⟨a, _ | ⟨b, values⟩⟩ <;> rfl
  | print => cases values <;> rfl
  | stop => rfl

theorem run_vacancies {k limit : Nat} (h : program.drop pc = List.replicate k none)
    (hpc : pc ≤ program.length) (hlimit : k < limit) :
    conclude ((e.machine program pc).run limit) =
      .ok (.ok ⟨e.payload, e.printed, program.length⟩) := by
  induction k generalizing pc limit with
  | zero =>
    obtain ⟨limit, rfl⟩ : ∃ n, limit = n + 1 := ⟨limit - 1, by omega⟩
    obtain rfl : pc = program.length := Nat.le_antisymm hpc (List.drop_eq_nil_iff.mp h)
    simp [StackMachine.run, StackMachine.step, machine, conclude]
  | succ k ih =>
    have hget : program[pc]? = some none := by rw [← List.head?_drop, h]; rfl
    have hdrop : program.drop (pc + 1) = List.replicate k none := by rw [← List.tail_drop, h]; rfl
    obtain ⟨hlt, -⟩ := List.getElem?_eq_some_iff.mp hget
    have hstep : (e.machine program pc).step = .next (e.machine program (pc + 1)) := by
      simp [StackMachine.step, machine, hget]
    obtain ⟨limit, rfl⟩ : ∃ n, limit = n + 1 := ⟨limit - 1, by omega⟩
    have hlimit' : k < limit := by omega
    rw [StackMachine.run, hstep]
    exact ih hdrop hlt hlimit'

/-- **A run of the machine is the fold** over the instructions from the program counter on. -/
theorem run_machine {code : List Straight} {k limit : Nat}
    (h : program.drop pc = Straight.slots code k) (hpc : pc ≤ program.length)
    (hlimit : code.length + k < limit) :
    conclude ((e.machine program pc).run limit) =
      .ok (result program.length (e.fold (code.zipIdx pc))) := by
  induction code generalizing e pc limit with
  | nil =>
    rw [List.length_nil, Nat.zero_add] at hlimit
    exact e.run_vacancies h hpc hlimit
  | cons s code ih =>
    have hget : program[pc]? = some (some s.instruction) := by rw [← List.head?_drop, h]; rfl
    have hdrop : program.drop (pc + 1) = Straight.slots code k := by rw [← List.tail_drop, h]; rfl
    obtain ⟨hlt, -⟩ := List.getElem?_eq_some_iff.mp hget
    obtain ⟨limit, rfl⟩ : ∃ n, limit = n + 1 := ⟨limit - 1, by omega⟩
    rw [List.length_cons] at hlimit
    have hlimit' : code.length + k < limit := by omega
    rw [e.step_machine hget, List.zipIdx_cons, fold_cons]
    cases e.step pc s with
    | ok e' => exact ih e' hdrop hlt hlimit'
    | error r => rfl

end Worksheet

namespace Program

theorem start_of_agrees {c c' : Computer} {m : StackMachine} {ending : Ending} {limit : Nat}
    (hc : c.setAddress 0 = .ok c') (h : Agrees (c'.execute limit) m ending) :
    start limit c = conclude (m, ending) := by
  rw [start, hc]
  dsimp only
  rw [h.ending_eq, h.printed_eq, h.pc_eq]
  cases ending <;> rfl

theorem start_loading {code : List Straight} {k limit : Nat} (hsize : 0 < code.length + k)
    (hlimit : code.length + k < limit) :
    start limit (.loading code k) =
      .ok (if code = [] then .error (.noInstruction 0)
        else Worksheet.result (code.length + k) (Worksheet.blank.fold code.zipIdx)) := by
  have hindex : (Computer.loading code k).address? 0 = some 0 :=
    Word.index?_eq_some_iff.mpr ⟨by simpa [Computer.loading, Computer.size] using hsize, rfl⟩
  have hzero : (Computer.loading code k).setAddress 0 =
      .ok (Worksheet.blank.machine (Straight.slots code k) 0).computer := by
    rw [Computer.setAddress, hindex]
    rfl
  have hstart := (Worksheet.blank.machine (Straight.slots code k) 0).canStart_computer
  cases code with
  | nil =>
    -- the first slot is vacant, so the run does not start
    obtain ⟨k, rfl⟩ : ∃ n, k = n + 1 := ⟨k - 1, by simp at hsize; omega⟩
    have hnot : ¬ (Worksheet.blank.machine (Straight.slots [] (k + 1)) 0).computer.canStart := by
      rw [hstart]
      exact Bool.false_ne_true
    rw [start, hzero]
    dsimp only
    rw [Computer.execute, if_neg hnot]
    rfl
  | cons s code =>
    have hdrop : (Straight.slots (s :: code) k).drop 0 = Straight.slots (s :: code) k := rfl
    have hrun := Worksheet.blank.run_machine hdrop (Nat.zero_le _) hlimit
    have hagrees := (Worksheet.blank.machine (Straight.slots (s :: code) k) 0).run_agrees limit
    rw [if_neg (List.cons_ne_nil _ _), ← Straight.length_slots, ← hrun]
    refine start_of_agrees hzero ?_
    rw [Computer.execute, if_pos (by rw [hstart]; rfl)]
    exact hagrees

theorem ofSize_eq_loading {size : Word} (hsize : 24 * Store.capacityFor size ≤ 2 ^ 63 - 1) :
    Computer.ofSize size = .ok (.loading [] (Store.capacityFor size)) := by
  rw [Computer.ofSize, Store.ofSize_of_fits hsize]
  simp [Except.map, Computer.loading, Straight.slots, StackMachine.cells, Store.ofParts,
    Store.vacant]

section Fitting

variable {size : Word} {program : Program} {limit : Nat}
  (hsize : 24 * Store.capacityFor size ≤ 2 ^ 63 - 1)
  (hstraight : ∀ order ∈ program, order.1 ≠ .call ∧ order.1 ≠ .ret)
include hsize hstraight

theorem run_of_loadFault {fault : Fault}
    (hfault : loadFault? (Store.capacityFor size) program.zipIdx = some fault) :
    run limit size program = .ok (.error fault) := by
  have hload := load_straight program hstraight [] (Store.capacityFor size)
  rw [List.length_nil, Nat.zero_add, hfault] at hload
  rw [run, ofSize_eq_loading hsize]
  dsimp only
  rw [hload]

/-- **Running a straight line that can be loaded** gives the result of the fold, unless there is
nothing to run. -/
theorem run_of_fits (hfault : loadFault? (Store.capacityFor size) program.zipIdx = none)
    (hlimit : Store.capacityFor size < limit) :
    run limit size program =
      .ok (if program = [] then .error (.noInstruction 0)
        else Worksheet.result (Store.capacityFor size)
          (Worksheet.blank.fold (program.filterMap Straight.of?).zipIdx)) := by
  have hload := load_straight program hstraight [] (Store.capacityFor size)
  rw [List.length_nil, Nat.zero_add, hfault] at hload
  obtain ⟨j, hj, hcode⟩ := hload
  rw [List.nil_append] at hj hcode
  have hpos := Computer.one_le_capacityFor size
  have hempty : program.filterMap Straight.of? = [] ↔ program = [] := by
    rw [← List.length_eq_zero_iff, ← List.length_eq_zero_iff, length_filterMap_of? hstraight hfault]
  rw [run, ofSize_eq_loading hsize]
  dsimp only
  rw [hcode]
  dsimp only
  rw [start_loading (by omega) (by omega), ← hj]
  simp only [hempty]

end Fitting

/-- **Straight lines evaluate as a left fold.** A program without calls and returns, run on a computer
of a size that fits in memory, gives the result of the fold: the fault that keeps it from being
loaded, or, if it is loaded, what its instructions do one after another to a list of values. -/
theorem run_eq_straightLine (size : Word) (program : Program) (limit : Nat)
    (hsize : 24 * Store.capacityFor size ≤ 2 ^ 63 - 1)
    (hstraight : ∀ order ∈ program, order.1 ≠ .call ∧ order.1 ≠ .ret)
    (hlimit : Store.capacityFor size < limit) :
    run limit size program = .ok (straightLine (Store.capacityFor size) program) := by
  rw [straightLine]
  cases hfault : loadFault? (Store.capacityFor size) program.zipIdx with
  | some fault => exact run_of_loadFault hsize hstraight hfault
  | none => exact run_of_fits hsize hstraight hfault hlimit

/-- A program that fills its computer. It multiplies the greatest word by two, which wraps around,
prints the product although a print takes no argument, and finds nothing to multiply at the end. -/
def fillingProgram : Program :=
  [(.push, some 2), (.push, some 9223372036854775807), (.mult, some 7), (.print, some 7),
    (.mult, none)]

/-- The same program with an operation too many, which is refused before anything is run. -/
def overflowingProgram : Program := fillingProgram ++ [(.stop, none)]

theorem run_eq_straightLine_filled :
    24 * Store.capacityFor 5 ≤ 2 ^ 63 - 1 ∧
      (∀ order ∈ overflowingProgram, order.1 ≠ .call ∧ order.1 ≠ .ret) ∧ Store.capacityFor 5 < 6 ∧
      run 6 5 fillingProgram = .ok (.error (.missingFactors 4)) ∧
      run 6 5 (fillingProgram.take 4) = .ok (.ok ⟨some (-2), #[-2], 5⟩) ∧
      run 6 5 overflowingProgram = .ok (.error (.addressOutOfBounds 5 5)) := by
  refine ⟨by decide, by decide, by decide, ?_, ?_, ?_⟩
  · exact run_eq_straightLine 5 fillingProgram 6 (by decide) (by decide) (by decide)
  · exact run_eq_straightLine 5 (fillingProgram.take 4) 6 (by decide) (by decide) (by decide)
  · exact run_eq_straightLine 5 overflowingProgram 6 (by decide) (by decide) (by decide)

end Program

end CellMachine
