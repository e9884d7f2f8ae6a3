import CellMachine.Text.Basic

/-! # Aborts

An abort ends everything: unlike a fault it is no result that work goes on from. A store can be too
large to be laid out at all, and a run can exhaust the number of cycles it was allowed.

* `Abort`: the two causes.
* `Abort.message`: their wording. -/

namespace CellMachine

/-- **Causes of an abort.** -/
inductive Abort where
  /-- A store was asked for that has more bytes than memory can address. -/
  | storeTooLarge
  /-- A run did not end within the cycles it was allowed. -/
  | outOfCycles
deriving DecidableEq, Repr

/-- The wording of each abort. -/
def Abort.message : Abort → Text
  | storeTooLarge => "capacity overflow".toList
  | outOfCycles => "cycle limit reached".toList

end CellMachine
