import CellMachine.Text.Name
import CellMachine.Word
import Mathlib.Tactic.Tauto

/-! # Identifiers

An identifier is a letter followed by letters and digits, where the letters are those of ASCII and
the underscore. The names that the reader of scripts accepts are exactly the identifiers
(`isName_iff`), a binding binds an identifier (`identifier_of_binding?`), and no identifier denotes
a word (`ofText?_of_identifier`). -/

namespace CellMachine.Text

/-- **Letters:** those of ASCII, and the underscore. -/
def Letter (c : Char) : Prop := ('a' ≤ c ∧ c ≤ 'z') ∨ ('A' ≤ c ∧ c ≤ 'Z') ∨ c = '_'

/-- **Digits.** -/
def Digit (c : Char) : Prop := '0' ≤ c ∧ c ≤ '9'

/-- **Identifiers.** A letter, and then letters and digits. -/
def Identifier : Text → Prop
  | [] => False
  | c :: t => Letter c ∧ ∀ d ∈ t, Letter d ∨ Digit d

instance : DecidablePred Letter := fun c =>
  inferInstanceAs (Decidable (('a' ≤ c ∧ c ≤ 'z') ∨ ('A' ≤ c ∧ c ≤ 'Z') ∨ c = '_'))

instance : DecidablePred Digit := fun c => inferInstanceAs (Decidable ('0' ≤ c ∧ c ≤ '9'))

variable {c : Char} {t : Text}

/-! ### Characters by their code points -/

theorem digit_iff : Digit c ↔ 48 ≤ c.toNat ∧ c.toNat ≤ 57 := by
  simp only [Digit, Char.le_def, UInt32.le_iff_toNat_le]
  exact Iff.rfl

theorem letter_iff : Letter c ↔
    (97 ≤ c.toNat ∧ c.toNat ≤ 122) ∨ (65 ≤ c.toNat ∧ c.toNat ≤ 90) ∨ c.toNat = 95 := by
  have hunderscore : c = '_' ↔ c.toNat = 95 := by
    constructor
    · rintro rfl; rfl
    · intro h; exact Char.ext (UInt32.toNat_inj.mp h)
  simp only [Letter, Char.le_def, UInt32.le_iff_toNat_le, hunderscore]
  exact Iff.rfl

theorem Letter.not_digit (h : Letter c) : ¬ Digit c := by
  rw [letter_iff] at h
  rw [digit_iff]
  omega

theorem isDigit_iff : c.isDigit ↔ Digit c := by
  simp [Char.isDigit, Digit, Char.le_def]

theorem isNameStart_iff : isNameStart c ↔ Letter c := by
  have hupper : c.isUpper ↔ 'A' ≤ c ∧ c ≤ 'Z' := decide_eq_true_iff
  have hlower : c.isLower ↔ 'a' ≤ c ∧ c ≤ 'z' := by
    show (decide ('a' ≤ c) && decide (c ≤ 'z')) = true ↔ _
    rw [Bool.and_eq_true, decide_eq_true_iff, decide_eq_true_iff]
  show ((c.isUpper || c.isLower) || c == '_') = true ↔ Letter c
  rw [Bool.or_eq_true, Bool.or_eq_true, hupper, hlower, beq_iff_eq, Letter]
  tauto

theorem isNameChar_iff : isNameChar c ↔ Letter c ∨ Digit c := by
  rw [← isNameStart_iff, ← isDigit_iff]
  simp only [isNameChar, isNameStart, Char.isAlphanum, Bool.or_eq_true]
  tauto

/-! ### Names -/

theorem isName_iff : isName t ↔ Identifier t := by
  cases t with
  | nil => simp [isName, Identifier]
  | cons c t =>
    simp only [isName, Identifier, Bool.and_eq_true, List.all_eq_true, isNameStart_iff,
      isNameChar_iff]

instance : DecidablePred Identifier := fun _ => decidable_of_iff _ isName_iff

theorem identifier_of_binding? {name right : Text} (h : binding? t = some (name, right)) :
    Identifier name := by
  unfold binding? at h
  dsimp only at h
  split at h
  · rename_i hname
    obtain ⟨rest, -, heq⟩ := Option.map_eq_some_iff.mp h
    cases heq
    exact isName_iff.mp hname
  · cases h

/-! ### Numbers -/

theorem toInt?_of_letter (h : Letter c) (t : Text) : toInt? (c :: t) = none := by
  have hnat : toNat? (c :: t) = none := by
    have hdigit : ¬ c.isDigit := fun hd => h.not_digit (isDigit_iff.mp hd)
    simp [toNat?, hdigit]
  unfold toInt?
  split
  · rename_i heq
    cases heq
    exact absurd (letter_iff.mp h) (by decide)
  · rename_i heq
    cases heq
    exact absurd (letter_iff.mp h) (by decide)
  · rw [hnat]
    rfl

theorem ofText?_of_identifier (h : Identifier t) : Word.ofText? t = none := by
  cases t with
  | nil => exact h.elim
  | cons c t => rw [Word.ofText?, toInt?_of_letter h.1]; rfl

end CellMachine.Text
