import CellMachine.Session
import CellMachine.Text.Bytes

/-! # Reports

An invocation ends with a report: its exit code and what it has written. Faults of the computer are
part of the output and never change the exit code; refused arguments and unreadable input do.

* `Report`: exit code, standard output and standard error.
* `ReadFailure`: why a file cannot be read.
* `transcript`: records as they appear on standard output.
* `script`: the report on running a script. -/

namespace CellMachine

/-- **Reports.** -/
structure Report where
  code : Nat
  stdout : Text
  stderr : Text
deriving DecidableEq, Repr

/-- **Why a file cannot be read.** -/
inductive ReadFailure where
  /-- The system refuses, for a reason with a number. -/
  | system (reason : Text) (number : Nat)
  | notUtf8
deriving DecidableEq, Repr

namespace ReadFailure

/-- There is no such file. -/
def noSuchFile : ReadFailure := system "No such file or directory".toList 2

/-- There is a directory. -/
def isDirectory : ReadFailure := system "Is a directory".toList 21

/-- The wording of a failure. -/
def message : ReadFailure → Text
  | system reason number => reason ++ " (os error ".toList ++ Text.ofNat number ++ ")".toList
  | notUtf8 => "stream did not contain valid UTF-8".toList

end ReadFailure

/-- Records as they appear on standard output, the echoes only when they are wanted. -/
def transcript (quiet : Bool) (records : List Record) : Text :=
  Record.lines (if quiet then records.filter fun r => !r.isEcho else records)

/-! ## Scripts -/

/-- The report on a script that cannot be read. -/
def unreadable (path : Text) (failure : ReadFailure) : Report :=
  ⟨1, [], "error: cannot read '".toList ++ path ++ "': ".toList ++ failure.message ++ ['\n']⟩

/-- **The report on a script,** given what reading the file at the path gave. No line is run unless
all of it is a text. -/
def script (limit : Nat) (quiet : Bool) (path : Text) (content : Except ReadFailure Bytes) :
    Except Abort Report :=
  match content with
  | .error failure => .ok (unreadable path failure)
  | .ok bytes =>
    match Text.ofBytes? bytes with
    | none => .ok (unreadable path .notUtf8)
    | some source =>
      (Session.fresh.readSource limit source).map fun (_, records) =>
        ⟨0, transcript quiet records, []⟩

end CellMachine
