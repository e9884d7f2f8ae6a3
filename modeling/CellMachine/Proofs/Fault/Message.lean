import CellMachine.Fault
import CellMachine.Proofs.Text.Trim
import Mathlib.Data.List.Pairwise

/-! # The wording of faults

A message tells its fault completely: the kind of the fault and all its details can be read off the
text. How a message begins settles its *form*, for no two forms begin alike, and in no form does one
detail run into the next: a number ends where a blank or the message does, and a mnemonic is all that
stands between the quotes, whatever its characters are.

* `initial`, `head?_message`: the first character of a message.
* `Form`, `Fault.form`: how a message begins and how the rest of it is read. The form of a fault does
  not depend on its details.
* `kinds`, `kinds_apart`: one fault for each form, and that no form begins like another.
* `Form.Reads`, `reads_message`: a message has the form of its fault, and the fault is read off it.
* `eq_of_message_eq`: faults with one message are one fault. -/

namespace CellMachine.Fault

open Text (isBlank)

/-- The first character of a message. -/
def initial : Fault → Char
  | addressOutOfBounds _ _ => 'a'
  | counterOutOfBounds _ _ => 'p'
  | missingArgument op => op.mnemonic.headD ' '
  | unknownMnemonic _ | notAnInstruction _ => 'i'
  | noInstruction _ => 'n'
  | missingFactors _ => 'M'
  | missingTarget _ | callOutOfBounds _ _ => 'C'
  | missingReturn _ | returnOutOfBounds _ _ => 'R'
  | missingOutput _ => 'P'

theorem head?_message (f : Fault) : f.message.head? = some f.initial := by
  cases f with
  | missingArgument op => cases op <;> rfl
  | _ => rfl

/-! ## Forms -/

/-- **Forms of messages:** how a message begins, and what is read off the rest. -/
structure Form where
  stem : Text
  read : Text → Option Fault

namespace Form

/-- The rest is a number, the place of the fault. -/
def place (stem : Text) (fault : Nat → Fault) : Form where
  stem := stem
  read rest := (Text.toNat? rest).map fault

/-- The rest is one detail up to the first blank, then `middle`, a number, and `ending`. -/
def pair {α : Type} (stem middle ending : Text) (first : Text → Option α)
    (fault : α → Nat → Fault) : Form where
  stem := stem
  read rest :=
    (first (rest.takeWhile (!isBlank ·))).bind fun a =>
      (middle.isPrefixOf? (rest.dropWhile (!isBlank ·))).bind fun second =>
        (Text.toNat? (Text.without ending second)).map (fault a)

/-- The rest is a text and the quote behind it. -/
def quoted (stem : Text) (fault : Text → Fault) : Form where
  stem := stem
  read rest := some (fault (Text.without "'".toList rest))

/-- There is nothing more to read. -/
def whole (stem : Text) (fault : Fault) : Form where
  stem := stem
  read _ := some fault

end Form

/-- **The form of a fault's message.** -/
def form : Fault → Form
  | addressOutOfBounds _ _ =>
    .pair "address ".toList " is out of bounds (store length ".toList ")".toList
      Text.toNat? addressOutOfBounds
  | counterOutOfBounds _ _ =>
    .pair "program counter ".toList " is out of bounds (size ".toList ")".toList
      Word.ofText? counterOutOfBounds
  | missingArgument op =>
    .whole (op.mnemonic ++ " requires an argument".toList) (missingArgument op)
  | unknownMnemonic _ => .quoted "invalid instruction '".toList unknownMnemonic
  | notAnInstruction _ => .place "invalid instruction at address ".toList notAnInstruction
  | noInstruction _ => .place "no instruction at address ".toList noInstruction
  | missingFactors _ => .place "MULT needs two pushed values at address ".toList missingFactors
  | missingTarget _ => .place "CALL without an address at address ".toList missingTarget
  | callOutOfBounds _ _ =>
    .pair "CALL target ".toList " is out of bounds at address ".toList []
      Word.ofText? fun address pc => callOutOfBounds pc address
  | missingReturn _ => .place "RET needs a pushed return address at address ".toList missingReturn
  | returnOutOfBounds _ _ =>
    .pair "RET target ".toList " is out of bounds at address ".toList []
      Word.ofText? fun address pc => returnOutOfBounds pc address
  | missingOutput _ => .place "PRINT needs a pushed value at address ".toList missingOutput

/-- **One fault for each form.** -/
def kinds : List Fault :=
  Opcode.all.map missingArgument ++
    [addressOutOfBounds 0 0, counterOutOfBounds 0 0, unknownMnemonic [], notAnInstruction 0,
      noInstruction 0, missingFactors 0, missingTarget 0, callOutOfBounds 0 0, missingReturn 0,
      returnOutOfBounds 0 0, missingOutput 0]

theorem exists_kind (f : Fault) : ∃ g ∈ kinds, g.form = f.form := by
  cases f with
  | missingArgument op =>
    have hop : missingArgument op ∈ Opcode.all.map missingArgument :=
      List.mem_map_of_mem (Opcode.mem_all op)
    exact ⟨missingArgument op, List.mem_append_left _ hop, rfl⟩
  | addressOutOfBounds => exact ⟨addressOutOfBounds 0 0, by decide, rfl⟩
  | counterOutOfBounds => exact ⟨counterOutOfBounds 0 0, by decide, rfl⟩
  | unknownMnemonic => exact ⟨unknownMnemonic [], by decide, rfl⟩
  | notAnInstruction => exact ⟨notAnInstruction 0, by decide, rfl⟩
  | noInstruction => exact ⟨noInstruction 0, by decide, rfl⟩
  | missingFactors => exact ⟨missingFactors 0, by decide, rfl⟩
  | missingTarget => exact ⟨missingTarget 0, by decide, rfl⟩
  | callOutOfBounds => exact ⟨callOutOfBounds 0 0, by decide, rfl⟩
  | missingReturn => exact ⟨missingReturn 0, by decide, rfl⟩
  | returnOutOfBounds => exact ⟨returnOutOfBounds 0 0, by decide, rfl⟩
  | missingOutput => exact ⟨missingOutput 0, by decide, rfl⟩

/-- Faults of which neither message begins like the other. -/
def Apart (f g : Fault) : Prop := ¬ f.form.stem <+: g.form.stem ∧ ¬ g.form.stem <+: f.form.stem

instance : DecidableRel Apart := fun f g =>
  inferInstanceAs (Decidable (¬ f.form.stem <+: g.form.stem ∧ ¬ g.form.stem <+: f.form.stem))

instance : Std.Symm Apart := ⟨fun _ _ h => h.symm⟩

theorem kinds_apart : kinds.Pairwise Apart := by decide +kernel

theorem form_eq_of_begins {f g : Fault} (h : f.form.stem <+: g.form.stem) : f.form = g.form := by
  obtain ⟨f₀, hf₀, hf⟩ := exists_kind f
  obtain ⟨g₀, hg₀, hg⟩ := exists_kind g
  rw [← hf, ← hg] at h ⊢
  by_cases hne : f₀ = g₀
  · rw [hne]
  · exact absurd h (kinds_apart.forall hf₀ hg₀ hne).1

/-! ## Details -/

section Details

variable {stem middle ending t : Text}

theorem isBlank_of_mem_ofNat {n : Nat} {c : Char} (h : c ∈ Text.ofNat n) : isBlank c = false :=
  Text.isBlank_of_letter_or_digit (Or.inr (Text.isDigit_iff.mp (Text.isDigit_of_mem_ofNat h)))

theorem isBlank_of_mem_text {w : Word} {c : Char} (h : c ∈ w.text) : isBlank c = false := by
  rw [Word.text] at h
  cases hw : w.toInt with
  | ofNat n =>
    rw [hw] at h
    exact isBlank_of_mem_ofNat h
  | negSucc n =>
    rw [hw] at h
    rcases List.mem_cons.mp h with rfl | h
    · decide
    · exact isBlank_of_mem_ofNat h

/-- **The form reads the fault `f` off the text `t`:** `t` begins as it should, and `f` is read off
the rest. -/
def Form.Reads (form : Form) (t : Text) (f : Fault) : Prop :=
  ∃ rest, t = form.stem ++ rest ∧ form.read rest = some f

theorem reads_place (fault : Nat → Fault) (n : Nat) :
    (Form.place stem fault).Reads (stem ++ Text.ofNat n) (fault n) := by
  refine ⟨Text.ofNat n, rfl, ?_⟩
  simp only [Form.place, Text.toNat?_ofNat, Option.map_some]

theorem reads_quoted (fault : Text → Fault) (mnemonic : Text) :
    (Form.quoted stem fault).Reads (stem ++ mnemonic ++ "'".toList) (fault mnemonic) := by
  refine ⟨mnemonic ++ "'".toList, List.append_assoc .., ?_⟩
  simp only [Form.quoted, Text.without_append]

theorem reads_whole (fault : Fault) : (Form.whole stem fault).Reads stem fault :=
  ⟨[], (List.append_nil stem).symm, rfl⟩

section Pairs

variable {α : Type} {first : Text → Option α} {a : α} (fault : α → Nat → Fault) (n : Nat)
  (hblank : ∀ c ∈ t, isBlank c = false) (hfirst : first t = some a)
  (hmiddle : middle.head? = some ' ')
include hblank hfirst hmiddle

/-- **Two details are told apart** by the blank behind the first. -/
theorem reads_pair : (Form.pair stem middle ending first fault).Reads
    (stem ++ t ++ middle ++ Text.ofNat n ++ ending) (fault a n) := by
  have hall : ∀ c ∈ t, !isBlank c := by simpa using hblank
  have hspace : isBlank ' ' = true := by decide
  obtain ⟨words, rfl⟩ := List.head?_eq_some_iff.mp hmiddle
  have htake : (t ++ (' ' :: words ++ (Text.ofNat n ++ ending))).takeWhile (!isBlank ·) = t := by
    rw [List.takeWhile_append_of_pos hall]
    simp [hspace]
  have hdrop : (t ++ (' ' :: words ++ (Text.ofNat n ++ ending))).dropWhile (!isBlank ·) =
      ' ' :: words ++ (Text.ofNat n ++ ending) := by
    rw [List.dropWhile_append_of_pos hall]
    simp [hspace]
  have hcut : (' ' :: words).isPrefixOf? (' ' :: words ++ (Text.ofNat n ++ ending)) =
      some (Text.ofNat n ++ ending) := List.isPrefixOf?_eq_some_iff_append_eq.mpr rfl
  refine ⟨t ++ (' ' :: words ++ (Text.ofNat n ++ ending)), by simp [Form.pair], ?_⟩
  simp only [Form.pair, htake, hdrop, hfirst, hcut, Option.bind_some, Text.without_append,
    Text.toNat?_ofNat, Option.map_some]

theorem reads_pair_of_no_ending : (Form.pair stem middle [] first fault).Reads
    (stem ++ t ++ middle ++ Text.ofNat n) (fault a n) := by
  have h : (Form.pair stem middle [] first fault).Reads
      (stem ++ t ++ middle ++ Text.ofNat n ++ []) (fault a n) :=
    reads_pair fault n hblank hfirst hmiddle
  rwa [List.append_nil] at h

end Pairs

end Details

/-! ## Messages -/

/-- **A message has the form of its fault, and the fault is read off it.** -/
theorem reads_message (f : Fault) : f.form.Reads f.message f := by
  cases f with
  | addressOutOfBounds index length =>
    exact reads_pair _ length (fun _ => isBlank_of_mem_ofNat) (Text.toNat?_ofNat index) rfl
  | counterOutOfBounds address size =>
    exact reads_pair _ size (fun _ => isBlank_of_mem_text) (Word.ofText?_text address) rfl
  | callOutOfBounds pc address =>
    exact reads_pair_of_no_ending _ pc (fun _ => isBlank_of_mem_text) (Word.ofText?_text address) rfl
  | returnOutOfBounds pc address =>
    exact reads_pair_of_no_ending _ pc (fun _ => isBlank_of_mem_text) (Word.ofText?_text address) rfl
  | missingArgument op => exact reads_whole _
  | unknownMnemonic mnemonic => exact reads_quoted _ mnemonic
  | notAnInstruction pc | noInstruction pc | missingFactors pc | missingTarget pc
  | missingReturn pc | missingOutput pc => exact reads_place _ pc

theorem eq_of_message_eq {f g : Fault} (h : f.message = g.message) : f = g := by
  obtain ⟨rest, hf, hread⟩ := reads_message f
  obtain ⟨rest', hg, hread'⟩ := reads_message g
  have hform : f.form = g.form := by
    have hprefix : f.form.stem <+: f.message := ⟨rest, hf.symm⟩
    have hprefix' : g.form.stem <+: f.message := ⟨rest', by rw [h, hg]⟩
    rcases List.prefix_or_prefix_of_prefix hprefix hprefix' with hle | hle
    · exact form_eq_of_begins hle
    · exact (form_eq_of_begins hle).symm
  have hrest : rest = rest' := by
    rw [hf, hg, hform] at h
    exact List.append_cancel_left h
  rw [hform, hrest, hread'] at hread
  exact (Option.some.inj hread).symm

end CellMachine.Fault
