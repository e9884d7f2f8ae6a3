import CellMachine.Script.Line
import CellMachine.Script.Replay

/-! # Sessions

A session reads lines. It keeps the variables assigned so far, the routine being or last defined,
and the computer that the routine last constructed. Everything it has to tell are records, in the
order in which they arise.

* `Session`, `Session.fresh`: sessions, and the one that has read nothing.
* `Session.readLine`: the reply to one line.
* `Session.readSource`: the reply to a whole text, each line echoed before it is read.

Each run that a line starts may take `limit` cycles; only a run that exceeds them, and a computer
that is too large, make a reply abort. -/

namespace CellMachine

/-- **Sessions.** -/
structure Session where
  vars : Variables
  /-- The routine being defined, or the last one defined. -/
  routine : Option Routine
  bench : Option Bench
deriving DecidableEq, Repr

namespace Session

/-- **The fresh session.** -/
def fresh : Session := ⟨[], none, none⟩

/-- Whether a routine is being defined. -/
def isCapturing (s : Session) : Bool := Line.capturing s.routine

/-- The value of a variable. -/
def value? (s : Session) (name : Text) : Option Word := s.vars.value? name

/-- **A call.** The lines of the routine are replayed on the bench; variables and routine stay. -/
def call (limit : Nat) (s : Session) : Reply Session :=
  match s.routine with
  | none => .silent s
  | some routine =>
    Reply.andThen (replay limit s.vars s.bench routine.body) fun bench =>
      .silent { s with bench }

/-- The reply to a line of a given meaning. -/
def act (limit : Nat) (s : Session) (line : Text) : Line → Reply Session
  | .exit => .ok (fresh, [.ended])
  | .ignored => .silent s
  | .unrecognized => .silent s
  | .closing => .silent { s with routine := s.routine.map Routine.close }
  | .body => .silent { s with routine := s.routine.map fun r => r.capture line }
  | .assignment name value => .silent { s with vars := s.vars.assign name value }
  | .opening name => .silent { s with routine := some (Routine.opened name) }
  | .call => s.call limit

/-- **The reply to one line.** -/
def readLine (limit : Nat) (s : Session) (line : Text) : Reply Session :=
  s.act limit line (Line.classify s.routine line)

/-- The reply to lines one after another. -/
def readLines (limit : Nat) (s : Session) (lines : List Text) : Reply Session :=
  feed (readLine limit) s lines

/-! ## Whole texts -/

/-- **The lines of a source text:** its pieces between newlines, each without one carriage return
at its end. -/
def sourceLines (source : Text) : List Text :=
  (source.splitOn '\n').map (Text.without ['\r'])

/-- The reply to one line that is echoed before it is read. -/
def echoLine (limit : Nat) (s : Session) (line : Text) : Reply Session :=
  Reply.andThen (.ok (s, [.echo line])) fun s => s.readLine limit line

/-- **The reply to a source text.** -/
def readSource (limit : Nat) (s : Session) (source : Text) : Reply Session :=
  feed (echoLine limit) s (sourceLines source)

end Session

end CellMachine
