import CellMachine.Shell.Report

/-! # Dialogues

A dialogue reads standard input line by line and shows what the session has to tell. It prompts
before each line, and goes on until the session ends, a line cannot be read, or there are no more
lines.

* `Turn`, `turn`: what one line of a dialogue leads to.
* `dialogue`: the report on a dialogue. -/

namespace CellMachine

/-- What a dialogue writes before it reads. -/
def prompt : Text := "> ".toList

/-- What a dialogue writes when a line cannot be read. -/
def unreadableLine : Text :=
  "error: cannot read stdin: ".toList ++ ReadFailure.notUtf8.message ++ ['\n']

/-- **How a dialogue goes on** after a line. -/
inductive Sequel where
  /-- With the next line, and the session as it is now. -/
  | proceed (session : Session)
  /-- Not at all; the exit code is settled. -/
  | leave (code : Nat)
deriving DecidableEq, Repr

/-- **What one line leads to:** what is written, and how the dialogue goes on. -/
structure Turn where
  stdout : Text
  stderr : Text
  sequel : Sequel
deriving DecidableEq, Repr

/-- The turn for a line that was read, or that could not be. -/
def turn (limit : Nat) (s : Session) : Option Text → Except Abort Turn
  | none => .ok ⟨[], unreadableLine, .leave 1⟩
  | some line =>
    (s.readLine limit line).map fun (s', records) =>
      ⟨transcript true records, [], if .ended ∈ records then .leave 0 else .proceed s'⟩

/-- **The report on a dialogue** with the given lines. -/
def dialogue (limit : Nat) (s : Session) : List (Option Text) → Except Abort Report
  | [] => .ok ⟨0, [], prompt⟩
  | line :: lines =>
    match turn limit s line with
    | .error abort => .error abort
    | .ok ⟨out, err, .leave code⟩ => .ok ⟨code, out, prompt ++ err⟩
    | .ok ⟨out, err, .proceed s'⟩ =>
      (dialogue limit s' lines).map fun report =>
        { report with stdout := out ++ report.stdout, stderr := prompt ++ err ++ report.stderr }

end CellMachine
