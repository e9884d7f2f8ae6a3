import CellMachine.Proofs.Script.Line
import CellMachine.Proofs.Script.Report

/-! # The grammar of lines

What a line means is said here by its shape alone, one rule for each meaning. Outside of definitions
the shapes exclude each other, save that a routine may be named `exit`; so no rule has to look at the
others but the one for calls, and the ones for lines that fit nothing else. Reading a line finds the
one meaning that the rules give it.

* `Idle`, `Defining`, `Calls`: blank lines and comments, whether a routine is being defined, and the
  lines that call a complete one.
* `Means`: the rules.
* `exists_means`, `classify_of_means`: every line has a meaning by the rules, and no other is found.
* `classify_eq_iff_means`: the two together. -/

namespace CellMachine.Line

open Text (Identifier Padded)

/-- Blank lines and comments. -/
def Idle (line : Text) : Prop := Text.trim line = [] ∨ (Text.trim line).head? = some '#'

/-- A routine is being defined. -/
def Defining (routine : Option Routine) : Prop := ∃ r, routine = some r ∧ r.closed = false

/-- **Lines that call a complete routine:** its name alone, or with `()` behind it. -/
def Calls (routine : Option Routine) (line : Text) : Prop :=
  ∃ r, routine = some r ∧ r.closed = true ∧
    (Text.trim line = r.name ∨ Text.trim line = r.name ++ "()".toList)

/-- **What a line means,** by its shape. -/
inductive Means (routine : Option Routine) (line : Text) : Line → Prop where
  | exit (h : Padded "exit()".toList line) : Means routine line .exit
  | ignored (h : Idle line) : Means routine line .ignored
  /-- While a routine is being defined, `end` completes it, and what fits no rule so far is part of
  it. -/
  | closing (hopen : Defining routine) (h : Padded "end".toList line) : Means routine line .closing
  | body (hopen : Defining routine) (hexit : ¬ Padded "exit()".toList line) (hidle : ¬ Idle line)
      (hend : ¬ Padded "end".toList line) : Means routine line .body
  /-- A number is assigned when there is a word for it. -/
  | assignment {name : Text} {value : Nat} {w : Word} (hopen : ¬ Defining routine)
      (h : Assigns line name value) (hw : w.toInt = value) :
      Means routine line (.assignment name w)
  | opening {name : Text} (hopen : ¬ Defining routine) (h : Opens line name) :
      Means routine line (.opening name)
  | call (hexit : ¬ Padded "exit()".toList line) (h : Calls routine line) : Means routine line .call
  | unrecognized (hopen : ¬ Defining routine) (hexit : ¬ Padded "exit()".toList line)
      (hidle : ¬ Idle line) (hassign : ∀ name value, Assigns line name value → 2 ^ 63 - 1 < value)
      (hdef : ∀ name, ¬ Opens line name) (hcall : ¬ Calls routine line) :
      Means routine line .unrecognized

variable {routine : Option Routine} {line : Text} {m : Line}

/-! ## Every line has a meaning -/

theorem padded_exit_iff : Padded "exit()".toList line ↔ Text.trim line = "exit()".toList :=
  Text.padded_iff (by decide)

theorem padded_end_iff : Padded "end".toList line ↔ Text.trim line = "end".toList :=
  Text.padded_iff (by decide)

theorem exists_means (routine : Option Routine) (line : Text) : ∃ m, Means routine line m := by
  by_cases hexit : Padded "exit()".toList line
  · exact ⟨_, .exit hexit⟩
  by_cases hidle : Idle line
  · exact ⟨_, .ignored hidle⟩
  by_cases hopen : Defining routine
  · by_cases hend : Padded "end".toList line
    · exact ⟨_, .closing hopen hend⟩
    · exact ⟨_, .body hopen hexit hidle hend⟩
  by_cases hassign : ∃ name value, Assigns line name value ∧ value ≤ 2 ^ 63 - 1
  · obtain ⟨name, value, h, hvalue⟩ := hassign
    obtain ⟨w, hw⟩ := Option.isSome_iff_exists.mp ((Word.ofInt?_natCast value).mpr hvalue)
    exact ⟨_, .assignment hopen h (Word.toInt_of_ofInt? hw)⟩
  by_cases hdef : ∃ name, Opens line name
  · obtain ⟨name, h⟩ := hdef
    exact ⟨_, .opening hopen h⟩
  by_cases hcall : Calls routine line
  · exact ⟨_, .call hexit hcall⟩
  refine ⟨_, .unrecognized hopen hexit hidle (fun name value h => ?_) (fun name h => ?_) hcall⟩
  · exact Nat.lt_of_not_le fun hvalue => hassign ⟨name, value, h, hvalue⟩
  · exact hdef ⟨name, h⟩

/-! ## Reading finds the meaning -/

theorem capturing_iff : capturing routine = true ↔ Defining routine := by
  cases routine with
  | none => simp [capturing, Defining]
  | some r => simp [capturing, Routine.isOpen, Defining]

theorem capturing_eq_false_of_not_defining (h : ¬ Defining routine) : capturing routine = false := by
  rw [← Bool.not_eq_true, capturing_iff]
  exact h

theorem isMeaningful_of_not_idle (h : ¬ Idle line) : isMeaningful line = true := by
  rw [← Bool.not_eq_false, isMeaningful_eq_false_iff]
  exact h

theorem not_isCalledBy_of_not_calls (hopen : ¬ Defining routine) (h : ¬ Calls routine line) :
    routine.any (·.isCalledBy (Text.trim line)) = false := by
  cases routine with
  | none => rfl
  | some r =>
    rw [Option.any_some, ← Bool.not_eq_true]
    intro hcalled
    have hclosed : r.closed = true := by
      by_contra hnot
      exact hopen ⟨r, rfl, by simpa using hnot⟩
    have hname := eq_name_of_isCalledBy hcalled
    rw [Text.trim_trim] at hname
    exact h ⟨r, rfl, hclosed, hname⟩

theorem ofInt?_eq_none_of_lt {value : Nat} (h : 2 ^ 63 - 1 < value) : Word.ofInt? value = none := by
  rw [← Option.not_isSome_iff_eq_none, Word.ofInt?_natCast]
  omega

theorem classify_of_no_shape (hopen : ¬ Defining routine) (hexit : ¬ Padded "exit()".toList line)
    (hidle : ¬ Idle line) (hassign : ∀ name value, Assigns line name value → 2 ^ 63 - 1 < value)
    (hdef : ∀ name, ¬ Opens line name) (hcall : ¬ Calls routine line) :
    classify routine line = .unrecognized := by
  rw [classify_of_meaningful (mt padded_exit_iff.mpr hexit) (isMeaningful_of_not_idle hidle),
    capturing_eq_false_of_not_defining hopen, if_neg Bool.false_ne_true, statement]
  cases hread : assignment? (Text.trim line) with
  | some named =>
    have hlarge := hassign named.1 named.2 (assignment?_trim_iff.mp hread)
    simp [ofInt?_eq_none_of_lt hlarge]
  | none =>
    cases hopening : opening? (Text.trim line) with
    | some name => exact absurd (opening?_trim_iff.mp hopening) (hdef name)
    | none => simp [not_isCalledBy_of_not_calls hopen hcall]

/-- **The meaning by the rules is the one that is found.** -/
theorem classify_of_means (hname : ∀ r ∈ routine, Identifier r.name) (h : Means routine line m) :
    classify routine line = m := by
  cases h with
  | exit h => rw [classify, if_pos (padded_exit_iff.mp h)]
  | ignored h =>
    refine classify_of_not_meaningful (fun hexit => ?_) (isMeaningful_eq_false_iff.mpr h)
    rw [Idle, hexit] at h
    exact absurd h (by decide)
  | closing hopen h =>
    have hend := padded_end_iff.mp h
    have hexit : Text.trim line ≠ "exit()".toList := by rw [hend]; decide
    have hmeaningful : isMeaningful line = true := by rw [isMeaningful, hend]; decide
    rw [classify_of_meaningful hexit hmeaningful, capturing_iff.mpr hopen, if_pos rfl, if_pos hend]
  | body hopen hexit hidle hend =>
    rw [classify_of_meaningful (mt padded_exit_iff.mpr hexit) (isMeaningful_of_not_idle hidle),
      capturing_iff.mpr hopen, if_pos rfl, if_neg (mt padded_end_iff.mpr hend)]
  | @assignment name value w hopen h hw =>
    rw [classify_of_assigns h (capturing_eq_false_of_not_defining hopen), ← hw, Word.ofInt?_toInt]
    rfl
  | opening hopen h => exact classify_of_opens h (capturing_eq_false_of_not_defining hopen)
  | call hexit h =>
    obtain ⟨r, rfl, hclosed, hcalls⟩ := h
    refine classify_call (hname r rfl) hclosed (hcalls.imp id fun hcalls => ⟨hcalls, fun heq => ?_⟩)
    -- a call of a routine named `exit` by `exit()` would be the end of the session
    rw [heq] at hcalls
    exact hexit (padded_exit_iff.mpr hcalls)
  | unrecognized hopen hexit hidle hassign hdef hcall =>
    exact classify_of_no_shape hopen hexit hidle hassign hdef hcall

/-- **Reading a line finds its meaning by the rules and no other.** In particular, a line that
assigns a number for which there is no word is not recognized. -/
theorem classify_eq_iff_means (hname : ∀ r ∈ routine, Identifier r.name) (line : Text) :
    (∀ m, classify routine line = m ↔ Means routine line m) ∧
      ∀ name value, ¬ Defining routine → Assigns line name value → 2 ^ 63 - 1 < value →
        classify routine line = .unrecognized := by
  refine ⟨fun m => ⟨fun hm => ?_, classify_of_means hname⟩, fun name value hopen h hlarge => ?_⟩
  · obtain ⟨m', hm'⟩ := exists_means routine line
    rw [← hm, classify_of_means hname hm']
    exact hm'
  · rw [classify_of_assigns h (capturing_eq_false_of_not_defining hopen),
      ofInt?_eq_none_of_lt hlarge]
    rfl

/-- Beside a complete routine named `def`, a number with leading zeros is assigned to a variable of
that name, and the blanks are not all of ASCII. -/
theorem classify_eq_iff_means_keyword :
    Identifier "def".toList ∧
      Means (some ⟨"def".toList, [], true⟩) "\tdef=\u2003007 ".toList (.assignment "def".toList 7) := by
  have hname : ∀ r ∈ some (Routine.mk "def".toList [] true), Identifier r.name := by
    intro r hr
    cases hr
    decide
  exact ⟨by decide, ((classify_eq_iff_means hname _).1 _).mp (by decide)⟩

end CellMachine.Line
