import CellMachine.Shell.Invocation

/-! # The command line

The program on real files and a real terminal. It decides nothing of its own: arguments, scripts
and dialogues are those of the shell, and this module reads the bytes and writes the texts. -/

namespace CellMachine

/-- The cycles that one run may take, more than any run has time for. -/
def cycleLimit : Nat := 0x4000000000000000

/-- Write a text to standard output and one to standard error, at once. -/
def emit (out err : Text) : IO Unit := do
  let stdout ← IO.getStdout
  stdout.putStr (String.ofList out)
  stdout.flush
  let stderr ← IO.getStderr
  stderr.putStr (String.ofList err)
  stderr.flush

/-- Write what a report says and take its exit code. -/
def conclude (report : Report) : IO UInt32 := do
  emit report.stdout report.stderr
  return report.code.toUInt32

/-- Give up after an abort. -/
def giveUp (abort : Abort) : IO UInt32 := do
  emit [] (abort.message ++ ['\n'])
  return 101

/-- A refusal of the system, whose number may come with its sign changed. -/
def refusal (number : UInt32) (reason : String) : ReadFailure :=
  let number := if number < 0x80000000 then number else 0 - number
  .system reason.capitalize.toList number.toNat

/-- Why the system could not read a file. -/
def readFailure : IO.Error → ReadFailure
  | .noFileOrDirectory _ number reason
  | .inappropriateType _ number reason
  | .permissionDenied _ number reason
  | .invalidArgument _ number reason
  | .resourceExhausted _ number reason
  | .otherError number reason => refusal number reason
  | failure => refusal 0 failure.toString

/-- What reading a file gives. -/
def readFile (path : Text) : IO (Except ReadFailure Bytes) := do
  match ← (IO.FS.readBinFile (String.ofList path)).toBaseIO with
  | .ok content => return .ok content.toList
  | .error failure => return .error (readFailure failure)

/-- The bytes of standard input up to the next newline, which they include, or up to the end. -/
partial def readRaw (stdin : IO.FS.Stream) (read : Bytes) : IO Bytes := do
  let byte ← stdin.read 1
  match byte.toList with
  | [] => return read.reverse
  | b :: _ => if b = 10 then return (b :: read).reverse else readRaw stdin (b :: read)

/-- A dialogue, line by line as the lines arrive. -/
partial def talk (s : Session) : IO UInt32 := do
  emit [] prompt
  match Text.inputLines (← readRaw (← IO.getStdin) []) with
  | [] => return 0
  | line :: _ =>
    match turn cycleLimit s line with
    | .error abort => giveUp abort
    | .ok ⟨out, err, sequel⟩ =>
      emit out err
      match sequel with
      | .leave code => return code.toUInt32
      | .proceed s' => talk s'

end CellMachine

open CellMachine in
/-- The program. -/
def main (args : List String) : IO UInt32 := do
  match Command.ofArgs (args.map String.toList) with
  | .error refusal => conclude refusal.report
  | .ok .help => conclude helpReport
  | .ok (.run quiet path) =>
    match script cycleLimit quiet path (← readFile path) with
    | .error abort => giveUp abort
    | .ok report => conclude report
  | .ok .repl => talk Session.fresh
