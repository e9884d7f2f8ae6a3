import CellMachine.Shell.Command
import CellMachine.Shell.Dialogue

/-! # Invocations

An invocation has arguments, files it can read, and standard input. What it does is all in its
report.

* `Surroundings`: the files and the standard input.
* `invoke`: the report on an invocation. -/

namespace CellMachine

/-- **What surrounds an invocation.** -/
structure Surroundings where
  /-- What reading the file at a path gives. -/
  file : Text → Except ReadFailure Bytes
  stdin : Bytes

/-- The report on refused arguments. -/
def Refusal.report (refusal : Refusal) : Report := ⟨1, [], refusal.message⟩

/-- The report that tells how the program is used. -/
def helpReport : Report := ⟨0, [], usage⟩

/-- **The report on an invocation.** -/
def invoke (limit : Nat) (around : Surroundings) (args : List Text) : Except Abort Report :=
  match Command.ofArgs args with
  | .error refusal => .ok refusal.report
  | .ok .help => .ok helpReport
  | .ok (.run quiet path) => script limit quiet path (around.file path)
  | .ok .repl => dialogue limit Session.fresh (Text.inputLines around.stdin)

end CellMachine
