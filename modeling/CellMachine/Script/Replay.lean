import CellMachine.Computer.Run
import CellMachine.Record
import CellMachine.Script.Action

/-! # Replaying a routine

When a routine is called, its lines are replayed in order with the variables of the moment. A line
either constructs a computer under a name, which from then on is the computer of the session, or is
a chain of actions addressed to that computer; any other line does nothing. A fault of an action is
reported and the next action follows; links that spell out no action are skipped.

* `Bench`: the computer of a session with its name, if there is one.
* `construction?`: the name and the size in `name = Computer.new(size)`.
* `Action.reply`: what one action does to a computer.
* `construct`, `construct_cases`: what a construction does to the bench, and all that it can do.
* `replayLine`, `replay`: what a line and a list of lines do to the bench. -/

namespace CellMachine

/-- **Benches.** The computer of a session, under the name it was constructed with. -/
structure Bench where
  /-- What the computer is addressed by. -/
  name : Text
  computer : Computer
deriving DecidableEq, Repr

/-- **Constructions.** The name and the size in `name = Computer.new(size)`; blanks may stand
around the line, the equals sign and the size. -/
def construction? (line : Text) : Option (Text × Nat) :=
  (Text.binding? (Text.trim line)).bind fun (name, right) =>
    (Text.between? "Computer.new(".toList ")".toList right).bind fun inner =>
      (Text.toNat? (Text.trim inner)).map fun size => (name, size)

/-! ## Actions on a computer -/

/-- The reply to an operation on the computer `c`: a fault is reported, and `c` stays. -/
def settle (c : Computer) : Except Fault Computer → Reply Computer
  | .ok c' => .silent c'
  | .error fault => .ok (c, [.failure fault.message])

/-- The reply to a run: what it printed, and then its fault if it failed. -/
def Outcome.reply (o : Outcome) : Reply Computer :=
  let printed := o.printed.toList.map Record.printed
  match o.ending with
  | .finished _ => .ok (o.computer, printed)
  | .failed fault => .ok (o.computer, printed ++ [.failure fault.message])
  | .unfinished => .error .outOfCycles

/-- **The reply to an action.** An action whose operand has no value does nothing. -/
def Action.reply (limit : Nat) (vs : Variables) (c : Computer) : Action → Reply Computer
  | .setAddress operand =>
    match operand.resolve vs with
    | some address => settle c (c.setAddress address)
    | none => .silent c
  | .insert mnemonic none => settle c (c.insert mnemonic none)
  | .insert mnemonic (some operand) =>
    match operand.resolve vs with
    | some argument => settle c (c.insert mnemonic (some argument))
    | none => .silent c
  | .execute => (c.execute limit).reply

/-- The reply to one link of a chain. -/
def linkReply (limit : Nat) (vs : Variables) (c : Computer) (link : Text) : Reply Computer :=
  match Action.ofText? link with
  | some action => action.reply limit vs c
  | none => .silent c

/-! ## Lines on a bench -/

/-- The reply to a construction. A size that no word can hold constructs nothing. -/
def construct (bench : Option Bench) (name : Text) (size : Nat) : Reply (Option Bench) :=
  (Word.ofInt? size).elim (.silent bench) fun w =>
    (Computer.ofSize w).map fun computer => (some ⟨name, computer⟩, [])

/-- **All that a construction can do.** -/
theorem construct_cases {bench bench' : Option Bench} {name : Text} {size : Nat} {out : List Record}
    (h : construct bench name size = .ok (bench', out)) :
    out = [] ∧ (Word.ofInt? size = none ∧ bench' = bench ∨
      ∃ w c, Word.ofInt? size = some w ∧ Computer.ofSize w = .ok c ∧ bench' = some ⟨name, c⟩) := by
  rw [construct] at h
  cases hw : Word.ofInt? size with
  | none =>
    rw [hw] at h
    cases h
    exact ⟨rfl, Or.inl ⟨rfl, rfl⟩⟩
  | some w =>
    rw [hw, Option.elim_some] at h
    cases hnew : Computer.ofSize w with
    | error cause =>
      rw [hnew] at h
      cases h
    | ok c =>
      rw [hnew] at h
      cases h
      exact ⟨rfl, Or.inr ⟨w, c, rfl, hnew, rfl⟩⟩

/-- The reply to a line that constructs nothing: the links of a chain addressed to the bench. -/
def chainReply (limit : Nat) (vs : Variables) (bench : Option Bench) (line : Text) :
    Reply (Option Bench) :=
  match bench with
  | none => .silent none
  | some b =>
    match links? b.name line with
    | none => .silent (some b)
    | some links =>
      Reply.andThen (feed (linkReply limit vs) b.computer links) fun computer =>
        .silent (some { b with computer })

/-- **The reply to one line of a routine.** -/
def replayLine (limit : Nat) (vs : Variables) (bench : Option Bench) (line : Text) :
    Reply (Option Bench) :=
  match construction? line with
  | some (name, size) => construct bench name size
  | none => chainReply limit vs bench line

/-- **The reply to the lines of a routine,** one after another. -/
def replay (limit : Nat) (vs : Variables) (bench : Option Bench) (lines : List Text) :
    Reply (Option Bench) :=
  feed (replayLine limit vs) bench lines

end CellMachine
