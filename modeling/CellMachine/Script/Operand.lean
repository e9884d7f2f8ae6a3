import CellMachine.Word

/-! # Variables and operands

A script assigns values to variables and uses them as operands of actions. An operand is a word
written out, or the name of a variable.

* `Variables`, `Variables.value?`, `Variables.assign`: the variables of a session.
* `Operand.ofText`, `Operand.resolve`: an operand as written, and its value.
* `value?_assign`: an assignment changes the one variable it names. -/

namespace CellMachine

/-! ## Variables -/

/-- **Variables** with their values, the most recently assigned first. -/
abbrev Variables := List (Text × Word)

namespace Variables

/-- The value of a variable. -/
def value? (vs : Variables) (name : Text) : Option Word := vs.lookup name

/-- The variables after an assignment: one value for each name, the latest. -/
def assign (vs : Variables) (name : Text) (value : Word) : Variables :=
  (name, value) :: vs.filter fun v => v.1 != name

/-- **An assignment changes the one variable it names.** -/
theorem value?_assign (vs : Variables) (name : Text) (value : Word) (x : Text) :
    (vs.assign name value).value? x = if x = name then some value else vs.value? x := by
  unfold value? assign
  by_cases h : x = name
  · simp [h]
  · have hx : (x == name) = false := by simpa using h
    simp only [List.lookup_cons, hx, h, if_false]
    induction vs with
    | nil => rfl
    | cons v vs ih =>
      rcases v with ⟨y, w⟩
      by_cases hy : y = name
      · subst hy
        simp [List.lookup_cons, hx, ih]
      · simp only [List.filter_cons, bne_iff_ne, ne_eq, hy, not_false_eq_true, if_true,
          List.lookup_cons, ih]

end Variables

/-! ## Operands -/

/-- **Operands.** -/
inductive Operand where
  /-- A word written out. -/
  | literal (value : Word)
  | named (name : Text)
deriving DecidableEq, Repr

namespace Operand

/-- A text that denotes a word is a literal; any other is the name of a variable. -/
def ofText (t : Text) : Operand :=
  match Word.ofText? t with
  | some value => literal value
  | none => named t

/-- The value of an operand. -/
def resolve (vs : Variables) : Operand → Option Word
  | literal value => some value
  | named name => vs.value? name

end Operand

end CellMachine
