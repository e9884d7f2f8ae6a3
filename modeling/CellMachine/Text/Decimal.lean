import CellMachine.Text.Basic

/-! # Decimal numbers

Numbers are written in decimal without leading zeros, a negative one behind a minus sign. They are
read more freely: any number of leading zeros is fine, and an integer may also carry a plus sign.
Only the ten ASCII digits count as digits.

* `ofNat`, `ofInt`: the decimal text of a number.
* `toNat?`: the natural number that a non-empty text of digits denotes.
* `toInt?`: the same behind an optional sign.
* `toNat?_ofNat`, `toInt?_ofInt`: what is written is read back. -/

namespace CellMachine.Text

/-- The decimal text of a natural number. -/
def ofNat (n : Nat) : Text := Nat.toDigits 10 n

/-- The decimal text of an integer. -/
def ofInt : Int → Text
  | .ofNat n => ofNat n
  | .negSucc n => '-' :: ofNat (n + 1)

/-- **Reading a natural number.** One or more digits and nothing else. -/
def toNat? (t : Text) : Option Nat :=
  if t ≠ [] ∧ t.all Char.isDigit then some (Nat.ofDigitChars 10 t 0) else none

/-- **Reading an integer.** One or more digits, behind at most one sign. -/
def toInt? : Text → Option Int
  | '-' :: t => (toNat? t).map fun n => -(n : Int)
  | '+' :: t => (toNat? t).map fun n => (n : Int)
  | t => (toNat? t).map fun n => (n : Int)

/-! ## Reading back -/

theorem ofNat_ne_nil (n : Nat) : ofNat n ≠ [] := Nat.toDigits_ne_nil

theorem isDigit_of_mem_ofNat {n : Nat} {c : Char} (h : c ∈ ofNat n) : c.isDigit :=
  Nat.isDigit_of_mem_toDigits (by decide) (by decide) h

/-- **Natural numbers read back.** -/
theorem toNat?_ofNat (n : Nat) : toNat? (ofNat n) = some n := by
  have hall : (ofNat n).all Char.isDigit := List.all_eq_true.mpr fun _ => isDigit_of_mem_ofNat
  rw [toNat?, if_pos ⟨ofNat_ne_nil n, hall⟩, ofNat,
    Nat.ofDigitChars_toDigits (by decide) (by decide)]

/-- A text that starts with a digit has no sign. -/
theorem toInt?_of_isDigit {c : Char} {t : Text} (h : c.isDigit) :
    toInt? (c :: t) = (toNat? (c :: t)).map fun n => (n : Int) := by
  unfold toInt?
  split
  · rename_i heq
    obtain ⟨rfl, -⟩ := List.cons.inj heq
    exact absurd h (by decide)
  · rename_i heq
    obtain ⟨rfl, -⟩ := List.cons.inj heq
    exact absurd h (by decide)
  · rfl

/-- **Integers read back.** -/
theorem toInt?_ofInt (i : Int) : toInt? (ofInt i) = some i := by
  cases i with
  | ofNat n =>
    obtain ⟨c, t, hct⟩ := List.exists_cons_of_ne_nil (ofNat_ne_nil n)
    have hc : c.isDigit := isDigit_of_mem_ofNat (n := n) (by simp [hct])
    rw [ofInt, hct, toInt?_of_isDigit hc, ← hct, toNat?_ofNat]
    rfl
  | negSucc n =>
    simp only [ofInt, toInt?, toNat?_ofNat]
    rfl

end CellMachine.Text
