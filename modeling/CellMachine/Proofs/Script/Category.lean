import CellMachine.Proofs.Script.Meaning

/-! # The categories of lines

Outside of definitions a line is put to five tests, and the first that it passes settles what it
means. The order of the tests does not matter: a line passes one of them at most. There is a single
exception. A routine may be named `exit`, and then `exit()` both ends the session and calls the
routine; the end of the session is tested first.

* `Category`, `Category.Fits`: the five categories, and the lines of each by their shape.
* `Category.test`, `classifyBy`: the test of a category, and the meaning of a line when the tests are
  made in a given order.
* `classify_eq_classifyBy`: the order in which lines are read.
* `classify_of_test`: a test that is passed gives the meaning of the line, whatever the others say.
* `classify_in_any_order`: the categories exclude each other, and the order does not matter. -/

namespace CellMachine.Line

open Text (Identifier Padded)

/-- **The categories of lines** outside of definitions. -/
inductive Category where
  | exit
  | ignored
  | assignment
  | opening
  | call
deriving DecidableEq, Repr

namespace Category

/-- Every category, in the order in which they are tested. -/
def all : List Category := [exit, ignored, assignment, opening, call]

/-- **The lines of a category.** -/
def Fits (routine : Option Routine) (line : Text) : Category → Prop
  | exit => Padded "exit()".toList line
  | ignored => Idle line
  | assignment => ∃ name value, Assigns line name value
  | opening => ∃ name, Opens line name
  | call => ∃ r, routine = some r ∧ r.isCalledBy line

/-- **The test of a category:** what a line means that passes it. -/
def test (routine : Option Routine) (line : Text) : Category → Option Line
  | exit => if Text.trim line = "exit()".toList then some .exit else none
  | ignored => if Text.trim line = [] ∨ isComment (Text.trim line) then some .ignored else none
  | assignment => (assignment? (Text.trim line)).map fun (name, value) =>
    (Word.ofInt? value).elim unrecognized (Line.assignment name)
  | opening => (opening? (Text.trim line)).map .opening
  | call => if routine.any (·.isCalledBy line) then some .call else none

end Category

/-- **The meaning of a line when the tests are made in a given order:** that of the first test it
passes. -/
def classifyBy (order : List Category) (routine : Option Routine) (line : Text) : Line :=
  (order.findSome? (Category.test routine line)).getD unrecognized

/-- The category whose test gives a meaning. The one test that may leave a line unrecognized is that
of assignments, when there is no word for the number. -/
def category? : Line → Option Category
  | exit => some .exit
  | ignored => some .ignored
  | assignment _ _ | unrecognized => some .assignment
  | opening _ => some .opening
  | call => some .call
  | closing | body => none

/-- A routine named `exit`, and a line that calls it by `exit()`. -/
def NamedExit (routine : Option Routine) (line : Text) : Prop :=
  ∃ r, routine = some r ∧ r.name = "exit".toList ∧ Text.trim line = "exit()".toList

variable {routine : Option Routine} {line : Text} {a b : Category} {m : Line}

/-! ## Tests -/

theorem isSome_test_iff : (a.test routine line).isSome ↔ a.Fits routine line := by
  cases a with
  | exit =>
    rw [Category.test, Category.Fits, padded_exit_iff]
    split_ifs with hexit
    · simp only [hexit, Option.isSome_some]
    · simp only [hexit, Option.isSome_none, Bool.false_eq_true]
  | ignored => simp [Category.test, Category.Fits, Idle, isComment]
  | assignment =>
    simp only [Category.test, Category.Fits, Option.isSome_map, Option.isSome_iff_exists,
      Prod.exists, assignment?_trim_iff]
  | opening =>
    simp only [Category.test, Category.Fits, Option.isSome_map, Option.isSome_iff_exists,
      opening?_trim_iff]
  | call => cases routine <;> simp [Category.test, Category.Fits]

theorem category?_of_test (h : a.test routine line = some m) : m.category? = some a := by
  cases a with
  | exit | ignored | call =>
    obtain ⟨-, hm⟩ := Option.ite_none_right_eq_some.mp h
    cases hm
    rfl
  | assignment =>
    obtain ⟨⟨name, value⟩, -, rfl⟩ := Option.map_eq_some_iff.mp h
    dsimp only
    cases Word.ofInt? value <;> rfl
  | opening =>
    obtain ⟨name, -, rfl⟩ := Option.map_eq_some_iff.mp h
    rfl

theorem classify_eq_classifyBy (hopen : capturing routine = false) :
    classify routine line = classifyBy Category.all routine line := by
  have hcalled : (routine.any (·.isCalledBy (Text.trim line))) =
      routine.any (·.isCalledBy line) := by
    simp only [Routine.isCalledBy, Text.trim_trim]
  simp only [classify, classifyBy, Category.all, List.findSome?_cons, Category.test, hopen,
    statement, hcalled, List.findSome?_nil]
  by_cases hexit : Text.trim line = "exit()".toList
  · simp only [if_pos hexit, Option.getD_some]
  by_cases hidle : Text.trim line = [] ∨ isComment (Text.trim line)
  · simp only [if_neg hexit, if_pos hidle, Option.getD_some]
  simp only [if_neg hexit, if_neg hidle, Bool.false_eq_true, if_false]
  cases assignment? (Text.trim line) with
  | some named => rfl
  | none =>
    cases opening? (Text.trim line) with
    | some name => rfl
    | none => cases routine.any (·.isCalledBy line) <;> rfl

/-! ## Any order -/

section Settled

variable (hroutine : ∀ r ∈ routine, r.closed = true ∧ Identifier r.name)
include hroutine

theorem not_defining_of_closed : ¬ Defining routine := by
  rintro ⟨r, hr, hopen⟩
  rw [(hroutine r hr).1] at hopen
  cases hopen

theorem namedExit_of_fits (h : Category.call.Fits routine line)
    (hexit : Text.trim line = "exit()".toList) : NamedExit routine line := by
  obtain ⟨r, hr, hcalled⟩ := h
  refine ⟨r, hr, ?_, hexit⟩
  rcases eq_name_of_isCalledBy hcalled with hname | hname
  · have hidentifier := (hroutine r hr).2
    rw [← hname, hexit] at hidentifier
    exact absurd hidentifier (by decide)
  · have hparts : "exit()".toList = "exit".toList ++ "()".toList := rfl
    rw [hexit, hparts] at hname
    exact (List.append_cancel_right hname).symm

/-- **A test that is passed gives the meaning of the line,** unless it takes the end of the session
for a call. -/
theorem classify_of_test (h : a.test routine line = some m)
    (hexit : a = .call → Text.trim line ≠ "exit()".toList) : classify routine line = m := by
  have hopen := not_defining_of_closed hroutine
  have hname : ∀ r ∈ routine, Identifier r.name := fun r hr => (hroutine r hr).2
  cases a with
  | exit =>
    obtain ⟨hline, hm⟩ := Option.ite_none_right_eq_some.mp h
    cases hm
    exact classify_of_means hname (.exit (padded_exit_iff.mpr hline))
  | ignored =>
    obtain ⟨hline, hm⟩ := Option.ite_none_right_eq_some.mp h
    cases hm
    exact classify_of_means hname (.ignored (by simpa [Idle, isComment] using hline))
  | assignment =>
    obtain ⟨⟨name, value⟩, hline, rfl⟩ := Option.map_eq_some_iff.mp h
    exact classify_of_assigns (assignment?_trim_iff.mp hline)
      (capturing_eq_false_of_not_defining hopen)
  | opening =>
    obtain ⟨name, hline, rfl⟩ := Option.map_eq_some_iff.mp h
    exact classify_of_means hname (.opening hopen (opening?_trim_iff.mp hline))
  | call =>
    obtain ⟨r, hr, hcalled⟩ : Category.call.Fits routine line := isSome_test_iff.mp (by rw [h]; rfl)
    obtain ⟨-, hm⟩ := Option.ite_none_right_eq_some.mp h
    cases hm
    have hcalls : Calls routine line := ⟨r, hr, (hroutine r hr).1, eq_name_of_isCalledBy hcalled⟩
    exact classify_of_means hname (.call (mt padded_exit_iff.mp (hexit rfl)) hcalls)

theorem classify_of_test_of_not_namedExit (h : a.test routine line = some m)
    (hexit : ¬ NamedExit routine line) : classify routine line = m := by
  refine classify_of_test hroutine h fun hcall hline => ?_
  have hfits : a.Fits routine line := isSome_test_iff.mp (by rw [h]; rfl)
  rw [hcall] at hfits
  exact hexit (namedExit_of_fits hroutine hfits hline)

theorem eq_of_fits (ha : a.Fits routine line) (hb : b.Fits routine line)
    (hexit : ¬ NamedExit routine line) : a = b := by
  obtain ⟨m, hm⟩ := Option.isSome_iff_exists.mp (isSome_test_iff.mpr ha)
  obtain ⟨m', hm'⟩ := Option.isSome_iff_exists.mp (isSome_test_iff.mpr hb)
  have hsame : m = m' := (classify_of_test_of_not_namedExit hroutine hm hexit).symm.trans
    (classify_of_test_of_not_namedExit hroutine hm' hexit)
  rw [← hsame] at hm'
  exact Option.some.inj ((category?_of_test hm).symm.trans (category?_of_test hm'))

theorem eq_exit_or_call (ha : a.Fits routine line) (hline : Text.trim line = "exit()".toList) :
    a = .exit ∨ a = .call := by
  by_cases hcall : a = .call
  · exact Or.inr hcall
  · obtain ⟨m, hm⟩ := Option.isSome_iff_exists.mp (isSome_test_iff.mpr ha)
    have hend : classify routine line = .exit := by rw [classify, if_pos hline]
    have hsame : m = .exit :=
      (classify_of_test hroutine hm fun h => absurd h hcall).symm.trans hend
    rw [hsame] at hm
    exact Or.inl (Option.some.inj (category?_of_test hm).symm)

/-- **The order of the tests does not matter** but for calls by the text that ends the session. -/
theorem classifyBy_of_perm {order : List Category} (horder : order.Perm Category.all)
    (hexit : ¬ NamedExit routine line) : classifyBy order routine line = classify routine line := by
  rw [classifyBy]
  cases hfound : order.findSome? (Category.test routine line) with
  | some m =>
    obtain ⟨before, a, behind, -, hm, -⟩ := List.findSome?_eq_some_iff.mp hfound
    exact (classify_of_test_of_not_namedExit hroutine hm hexit).symm
  | none =>
    -- no test is passed, in whatever order
    have hnone : Category.all.findSome? (Category.test routine line) = none := by
      rw [List.findSome?_eq_none_iff] at hfound ⊢
      exact fun a ha => hfound a (horder.mem_iff.mpr ha)
    have hopen := capturing_eq_false_of_not_defining (not_defining_of_closed hroutine)
    rw [classify_eq_classifyBy hopen, classifyBy, hnone]

end Settled

/-! ## The exception -/

section NamedExit

variable (h : NamedExit routine line)
include h

theorem trim_of_namedExit : Text.trim line = "exit()".toList := by
  obtain ⟨r, -, -, hline⟩ := h
  exact hline

theorem fits_of_namedExit :
    Category.exit.Fits routine line ∧ Category.call.Fits routine line := by
  obtain ⟨r, hr, hname, hline⟩ := h
  refine ⟨padded_exit_iff.mpr hline, r, hr, ?_⟩
  rw [Routine.isCalledBy, hline, hname]
  decide

theorem classifyBy_of_namedExit (rest : List Category) :
    classifyBy (.call :: rest) routine line = .call := by
  obtain ⟨m, hm⟩ := Option.isSome_iff_exists.mp (isSome_test_iff.mpr (fits_of_namedExit h).2)
  obtain ⟨-, hcall⟩ := Option.ite_none_right_eq_some.mp hm
  rw [classifyBy, List.findSome?_cons, hm, ← hcall]
  rfl

end NamedExit

/-- **Lines may be tested in any order.** Beside no routine, or a complete one that has an identifier
for its name, a line fits two of the five categories only when the routine is named `exit` and the
line is `exit()` with blanks around it; such a line both ends the session and calls the routine, and
fits no third category. So whatever the order of the five tests is, lines are read the same, but for
these. -/
theorem classify_in_any_order (hroutine : ∀ r ∈ routine, r.closed = true ∧ Identifier r.name)
    (line : Text) :
    (∀ a : Category, (a.test routine line).isSome ↔ a.Fits routine line) ∧
    (∀ a b : Category, a.Fits routine line → b.Fits routine line → a ≠ b →
      NamedExit routine line ∧ (a = .exit ∧ b = .call ∨ a = .call ∧ b = .exit)) ∧
    (NamedExit routine line →
      Category.exit.Fits routine line ∧ Category.call.Fits routine line) ∧
    ((∀ order : List Category, order.Perm Category.all →
      classifyBy order routine line = classify routine line) ↔ ¬ NamedExit routine line) := by
  refine ⟨fun a => isSome_test_iff, fun a b ha hb hne => ?_, fits_of_namedExit, fun h hexit => ?_,
    fun hexit order horder => classifyBy_of_perm hroutine horder hexit⟩
  · have hexit : NamedExit routine line := by
      by_contra hexit
      exact hne (eq_of_fits hroutine ha hb hexit)
    have hline := trim_of_namedExit hexit
    rcases eq_exit_or_call hroutine ha hline with rfl | rfl
    · rcases eq_exit_or_call hroutine hb hline with rfl | rfl
      · exact absurd rfl hne
      · exact ⟨hexit, Or.inl ⟨rfl, rfl⟩⟩
    · rcases eq_exit_or_call hroutine hb hline with rfl | rfl
      · exact ⟨hexit, Or.inr ⟨rfl, rfl⟩⟩
      · exact absurd rfl hne
  · -- tests for calls first, where lines are read with the end of the session first
    have hcall := h [.call, .exit, .ignored, .assignment, .opening] (by decide)
    rw [classifyBy_of_namedExit hexit, classify, if_pos (trim_of_namedExit hexit)] at hcall
    cases hcall

/-- A complete routine that is named `exit`. -/
def exitRoutine : Routine := ⟨"exit".toList, [], true⟩

/-- Its bare name calls it in whatever order the tests are made, but for `exit()` the order counts. -/
theorem classify_in_any_order_exit :
    (∀ order : List Category, order.Perm Category.all →
      classifyBy order (some exitRoutine) "exit".toList = .call) ∧
    ¬ ∀ order : List Category, order.Perm Category.all →
      classifyBy order (some exitRoutine) "\texit() ".toList = .exit := by
  have hroutine : ∀ r ∈ some exitRoutine, r.closed = true ∧ Identifier r.name := by
    intro r hr
    cases hr
    decide
  obtain ⟨-, -, -, hbare⟩ := classify_in_any_order hroutine "exit".toList
  obtain ⟨-, -, -, hboth⟩ := classify_in_any_order hroutine "\texit() ".toList
  refine ⟨hbare.mpr ?_, fun h => hboth.mp h ⟨exitRoutine, rfl, rfl, by decide⟩⟩
  exact fun hexit => absurd (trim_of_namedExit hexit) (by decide)

end CellMachine.Line
