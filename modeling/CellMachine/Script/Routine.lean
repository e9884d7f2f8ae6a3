import CellMachine.Text.Name

/-! # Routines

A script defines one routine at a time: a name and the lines between the opening of its definition
and the closing. While a routine is open, lines are captured; they are only looked at when the
routine is called.

* `Routine`, `Routine.opened`: the routine whose definition has just been opened.
* `Routine.capture`, `Routine.close`: a further line, and the end of the definition.
* `Routine.isCalledBy`: the lines that call the routine. -/

namespace CellMachine

/-- **Routines.** -/
structure Routine where
  name : Text
  body : List Text
  /-- Whether the definition is complete. -/
  closed : Bool
deriving DecidableEq, Repr

namespace Routine

/-- The routine whose definition has just been opened. -/
def opened (name : Text) : Routine := ⟨name, [], false⟩

/-- Whether lines are still being captured. -/
def isOpen (r : Routine) : Bool := !r.closed

/-- The routine with one more line. -/
def capture (r : Routine) (line : Text) : Routine := { r with body := r.body ++ [line] }

/-- The routine with its definition complete. -/
def close (r : Routine) : Routine := { r with closed := true }

/-- **Calls.** A line calls the routine by its name alone, with or without `()` behind it. -/
def isCalledBy (r : Routine) (line : Text) : Bool :=
  Text.without "()".toList (Text.trim line) == r.name

end Routine

end CellMachine
