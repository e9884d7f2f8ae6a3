import CellMachine.Text.Decimal

/-! # Machine words

The machine computes with signed 64-bit words, and its arithmetic wraps around. A word also serves
as an address, where only the values below a given size are good.

* `Word.ofInt?`: the word of an integer in range; `Word.ofText?`: the word that a text denotes.
* `Word.text`: the decimal text of a word.
* `Word.index?`: the address below `size` that a word denotes.
* `ofText?_text`: the text of a word denotes it. -/

namespace CellMachine

/-- **Words.** Signed 64-bit integers with wrapping arithmetic. -/
abbrev Word := Int64

namespace Word

/-- The word with the value `i`, if there is one. -/
def ofInt? (i : Int) : Option Word :=
  if Int64.minValue.toInt ≤ i ∧ i ≤ Int64.maxValue.toInt then some (Int64.ofInt i) else none

/-- The word that a text denotes: an optional sign and digits, with a value in range. -/
def ofText? (t : Text) : Option Word := (Text.toInt? t).bind ofInt?

/-- The decimal text of a word. -/
def text (w : Word) : Text := Text.ofInt w.toInt

/-- **Addresses.** The word as an index below `size`; negative words are no addresses. -/
def index? (size : Nat) (w : Word) : Option Nat :=
  if 0 ≤ w.toInt ∧ w.toInt < size then some w.toInt.toNat else none

theorem minValue_le_toInt (w : Word) : Int64.minValue.toInt ≤ w.toInt := Int64.le_toInt w

theorem toInt_le_maxValue (w : Word) : w.toInt ≤ Int64.maxValue.toInt :=
  Int.le_sub_one_of_lt (Int64.toInt_lt w)

/-- The value of a word is in range. -/
theorem ofInt?_toInt (w : Word) : ofInt? w.toInt = some w := by
  rw [ofInt?, if_pos ⟨minValue_le_toInt w, toInt_le_maxValue w⟩, Int64.ofInt_toInt]

/-- The word of an integer in range has that value. -/
theorem toInt_of_ofInt? {i : Int} {w : Word} (h : ofInt? i = some w) : w.toInt = i := by
  unfold ofInt? at h
  split at h
  · rename_i hi
    obtain rfl := Option.some.inj h
    exact Int64.toInt_ofInt_of_le hi.1 (Int.lt_add_one_of_le hi.2)
  · simp at h

/-- **The text of a word denotes it.** -/
theorem ofText?_text (w : Word) : ofText? w.text = some w := by
  rw [ofText?, text, Text.toInt?_ofInt]
  exact ofInt?_toInt w

/-- An index is below the size. -/
theorem index?_eq_some_iff {size i : Nat} {w : Word} :
    w.index? size = some i ↔ i < size ∧ w.toInt = i := by
  unfold index?
  split
  · rename_i h
    simp only [Option.some.injEq]
    omega
  · rename_i h
    simp only [reduceCtorEq, false_iff]
    omega

end Word

end CellMachine
