import CellMachine.Computer.Basic

/-! # Runs

A run takes one cycle after another until the program stops, fails, or leaves the addressable slots.
A cycle looks at the slot under the program counter: a vacant slot is passed over, an instruction is
carried out. Besides the computer, a run keeps its *payload*, the last word that a multiplication,
a print or a jump produced, and the values printed so far.

* `Config`, `Config.cycle`: the state of a run, and its next state or its end.
* `Config.run`: cycles in succession, at most a given number of them.
* `Computer.execute`: the run from the program counter on. It only starts at an instruction.
* `run_add`, `execute_add`: a run that ended is not changed by more allowed cycles. -/

namespace CellMachine

/-- **How a run ends.** -/
inductive Ending where
  /-- The program stopped or was passed to its end; the payload is the result. -/
  | finished (payload : Option Word)
  | failed (fault : Fault)
  /-- The allowed cycles are used up and the run has not ended. -/
  | unfinished
deriving DecidableEq, Repr

/-- **The outcome of a run:** the computer it leaves, what it printed, and how it ended. -/
structure Outcome where
  computer : Computer
  printed : Array Word
  ending : Ending
deriving DecidableEq, Repr

/-- **The state of a run.** -/
structure Config where
  computer : Computer
  /-- The last word produced. -/
  payload : Option Word
  printed : Array Word
deriving DecidableEq, Repr

/-- **What a cycle leads to:** a further state, or the end of the run. -/
inductive Cycle where
  | next (config : Config)
  | halt (outcome : Outcome)
deriving DecidableEq, Repr

namespace Config

/-- The run ends with its payload. -/
def finish (k : Config) : Cycle := .halt ⟨k.computer, k.printed, .finished k.payload⟩

/-- The run ends with a fault. -/
def fail (k : Config) (fault : Fault) : Cycle := .halt ⟨k.computer, k.printed, .failed fault⟩

/-- The program counter moves on by one slot. -/
def advance : Config → Config
  | ⟨⟨store, pc⟩, payload, printed⟩ => ⟨⟨store, pc + 1⟩, payload, printed⟩

/-! ## Instructions -/

/-- Multiplication takes two cells before it looks at either, and pushes the product of their
values. -/
def mult : Config → Cycle
  | ⟨⟨store, pc⟩, payload, printed⟩ =>
    let (a, store₁) := store.popValue
    let (b, store₂) := store₁.popValue
    match a, b with
    | some a, some b => .next ⟨⟨store₂.pushValue (a * b), pc + 1⟩, some (a * b), printed⟩
    | _, _ => fail ⟨⟨store₂, pc⟩, payload, printed⟩ (.missingFactors pc)

/-- A call continues at its argument. -/
def call (argument : Option Word) : Config → Cycle
  | ⟨⟨store, pc⟩, payload, printed⟩ =>
    match argument with
    | none => fail ⟨⟨store, pc⟩, payload, printed⟩ (.missingTarget pc)
    | some w =>
      match w.index? store.capacity with
      | some target => .next ⟨⟨store, target⟩, some w, printed⟩
      | none => fail ⟨⟨store, pc⟩, payload, printed⟩ (.callOutOfBounds pc w)

/-- A return continues at the value it takes. -/
def ret : Config → Cycle
  | ⟨⟨store, pc⟩, payload, printed⟩ =>
    let (a, store') := store.popValue
    match a with
    | none => fail ⟨⟨store', pc⟩, payload, printed⟩ (.missingReturn pc)
    | some w =>
      match w.index? store'.capacity with
      | some target => .next ⟨⟨store', target⟩, some w, printed⟩
      | none => fail ⟨⟨store', pc⟩, payload, printed⟩ (.returnOutOfBounds pc w)

/-- A print takes a value and prints it. -/
def print : Config → Cycle
  | ⟨⟨store, pc⟩, payload, printed⟩ =>
    let (a, store') := store.popValue
    match a with
    | none => fail ⟨⟨store', pc⟩, payload, printed⟩ (.missingOutput pc)
    | some w => .next ⟨⟨store', pc + 1⟩, some w, printed.push w⟩

/-- A push puts its argument on top of the values. The payload stays. -/
def push (argument : Option Word) : Config → Cycle
  | ⟨⟨store, pc⟩, payload, printed⟩ =>
    match argument with
    | none => fail ⟨⟨store, pc⟩, payload, printed⟩ (.missingArgument .push)
    | some w => .next ⟨⟨store.pushValue w, pc + 1⟩, payload, printed⟩

/-- Carry out one instruction. -/
def perform (k : Config) (op : Opcode) (argument : Option Word) : Cycle :=
  match op with
  | .mult => k.mult
  | .call => k.call argument
  | .ret => k.ret
  | .stop => k.finish
  | .print => k.print
  | .push => k.push argument

/-! ## Cycles -/

/-- **One cycle.** -/
def cycle (k : Config) : Cycle :=
  if k.computer.pc < k.computer.size then
    match k.computer.store.peek k.computer.pc with
    | none => .next k.advance
    | some (.bare _) => k.fail (.notAnInstruction k.computer.pc)
    | some (.instruction op argument) => k.perform op argument
  else k.finish

/-- **Cycles in succession,** at most `limit` of them. -/
def run : Nat → Config → Outcome
  | 0, k => ⟨k.computer, k.printed, .unfinished⟩
  | limit + 1, k =>
    match k.cycle with
    | .next k' => run limit k'
    | .halt outcome => outcome

theorem run_succ (limit : Nat) (k : Config) :
    run (limit + 1) k =
      match k.cycle with
      | .next k' => run limit k'
      | .halt outcome => outcome := rfl

/-- **A run that ended is not changed by more allowed cycles.** -/
theorem run_add {limit : Nat} {k : Config} (h : (run limit k).ending ≠ .unfinished) (more : Nat) :
    run (limit + more) k = run limit k := by
  induction limit generalizing k with
  | zero => exact absurd rfl h
  | succ limit ih =>
    rw [Nat.succ_add, run_succ, run_succ]
    rw [run_succ] at h
    cases hk : k.cycle with
    | next k' =>
      rw [hk] at h
      exact ih h
    | halt outcome => rfl

end Config

namespace Computer

/-- Whether a run can start: the program counter stands on an occupied addressable slot. -/
def canStart (c : Computer) : Bool := c.pc < c.size && (c.store.peek c.pc).isSome

/-- The state in which a run starts. -/
def start (c : Computer) : Config := ⟨c, none, #[]⟩

/-- **Execution** from the program counter on, in at most `limit` cycles. -/
def execute (limit : Nat) (c : Computer) : Outcome :=
  if c.canStart then c.start.run limit
  else ⟨c, #[], .failed (.noInstruction c.pc)⟩

theorem execute_add {limit : Nat} {c : Computer} (h : (c.execute limit).ending ≠ .unfinished)
    (more : Nat) : c.execute (limit + more) = c.execute limit := by
  unfold execute at h ⊢
  split
  · rename_i hc
    rw [if_pos hc] at h
    exact Config.run_add h more
  · rfl

end Computer

end CellMachine
