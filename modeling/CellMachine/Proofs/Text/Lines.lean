import CellMachine.Text.Bytes
import Mathlib.Data.List.Basic

/-! # The lines of a text

Standard input is cut into lines before it is known to be a text. When it is one, the cuts are those
of the text: in its UTF-8 form the byte of the newline stands for newlines and for nothing else
(`newline_mem_utf8EncodeChar`), so cutting and encoding commute (`splitOn_toBytes`). Output is a
text of lines, each ended by a newline, and lines that hold none themselves can be told apart in it.

* `enteredLines`: the lines of a text that is entered.
* `inputLines_toBytes`: the lines of an input that is the UTF-8 form of a text.
* `inputLines_append`: an input that is cut at a newline.
* `ofLines`, `writtenLines`: the text of given lines, and the lines of a text that is written.
* `writtenLines_ofLines`: lines without newlines are read back. -/

namespace CellMachine.Text

/-! ### Newlines -/

theorem utf8EncodeChar_newline : String.utf8EncodeChar '\n' = [10] := rfl

/-- **The byte of the newline stands for nothing else:** all bytes of a character beyond ASCII are
beyond ASCII themselves. -/
theorem newline_mem_utf8EncodeChar {c : Char} (h : 10 ∈ String.utf8EncodeChar c) : c = '\n' := by
  have hbyte : ∀ n : Nat, (10 : UInt8) = UInt8.ofNat n ↔ n % 256 = 10 := by
    intro n
    rw [← UInt8.toNat_inj, UInt8.toNat_ofNat']
    exact eq_comm
  unfold String.utf8EncodeChar at h
  dsimp only at h
  by_cases hascii : c.val.toNat ≤ 0x7f
  · rw [if_pos hascii, List.mem_singleton, hbyte] at h
    refine Char.toNat_inj.mp ?_
    show c.val.toNat = 10
    omega
  · -- two, three or four bytes, each of them at least `0x80`
    rw [if_neg hascii] at h
    split at h
    on_goal 2 => split at h
    all_goals
      simp only [List.mem_cons, List.not_mem_nil, or_false, hbyte] at h
      omega

theorem splitOn_append_of_not_mem {α : Type} [BEq α] [LawfulBEq α] {a : α} {xs : List α}
    (h : a ∉ xs) (ys : List α) :
    (xs ++ ys).splitOn a = (ys.splitOn a).modifyHead (xs ++ ·) := by
  induction xs with
  | nil => cases hsplit : ys.splitOn a <;> simp [hsplit]
  | cons x xs ih =>
    obtain ⟨hx, hxs⟩ := not_or.mp (List.mem_cons.not.mp h)
    have hne : (x == a) = false := beq_false_of_ne (Ne.symm hx)
    rw [List.cons_append, List.splitOn_cons_eq_if_modifyHead, hne, if_neg Bool.false_ne_true,
      ih hxs]
    cases hsplit : ys.splitOn a <;> simp

theorem splitOn_toBytes (t : Text) : (toBytes t).splitOn 10 = (t.splitOn '\n').map toBytes := by
  induction t with
  | nil => rfl
  | cons c t ih =>
    have hcons : toBytes (c :: t) = String.utf8EncodeChar c ++ toBytes t := List.flatMap_cons
    rw [hcons, List.splitOn_cons_eq_if_modifyHead]
    by_cases hc : c = '\n'
    · subst hc
      rw [utf8EncodeChar_newline, List.singleton_append, List.splitOn_cons_eq_if_modifyHead, ih]
      rfl
    · have hnot : 10 ∉ String.utf8EncodeChar c := fun hmem => hc (newline_mem_utf8EncodeChar hmem)
      rw [splitOn_append_of_not_mem hnot, ih, if_neg (by simpa using hc)]
      cases hsplit : t.splitOn '\n' <;> simp [toBytes]

theorem isEmpty_toBytes (t : Text) : (toBytes t).isEmpty = t.isEmpty := by
  cases t with
  | nil => rfl
  | cons c t => simp [toBytes, String.utf8EncodeChar_ne_nil]

/-! ### Lines -/

/-- **The lines of a text that is entered:** each piece that a newline ends, without one carriage
return at its end, and then what follows the last newline, as it is, if there is anything. -/
def enteredLines (t : Text) : List Text :=
  (t.splitOn '\n').dropLast.map (without ['\r']) ++
    (t.splitOn '\n').getLast?.toList.filter fun piece => !piece.isEmpty

theorem inputLines_toBytes (t : Text) : inputLines (toBytes t) = (enteredLines t).map some := by
  have hended : (fun piece : Text => (ofBytes? (toBytes piece)).map (without ['\r'])) =
      fun piece => some (without ['\r'] piece) := by
    funext piece
    rw [ofBytes?_toBytes]
    rfl
  rw [inputLines, splitOn_toBytes, enteredLines, List.map_append]
  congr 1
  · rw [← List.map_dropLast, List.map_map, List.map_map]
    exact congrArg (List.map · _) hended
  · rw [List.getLast?_map]
    cases (t.splitOn '\n').getLast? with
    | none => rfl
    | some piece =>
      rw [Option.map_some, Option.toList_some, Option.toList_some, List.filter_singleton,
        List.filter_singleton, isEmpty_toBytes]
      cases piece with
      | nil => rfl
      | cons c piece => exact congrArg (List.cons · []) (ofBytes?_toBytes (c :: piece))

/-- **The text of given lines,** each ended by a newline. -/
def ofLines (lines : List Text) : Text := lines.flatMap (· ++ ['\n'])

/-- **The lines of a text that is written:** its pieces that a newline ends. -/
def writtenLines (t : Text) : List Text := (t.splitOn '\n').dropLast

theorem writtenLines_ofLines {lines : List Text} (h : ∀ line ∈ lines, '\n' ∉ line) :
    writtenLines (ofLines lines) = lines := by
  have hsplit : (ofLines lines).splitOn '\n' = lines ++ [[]] := by
    induction lines with
    | nil => rfl
    | cons line lines ih =>
      obtain ⟨hline, hlines⟩ := List.forall_mem_cons.mp h
      have hcons : ofLines (line :: lines) = line ++ '\n' :: ofLines lines := by simp [ofLines]
      rw [hcons, List.splitOn_append_cons_self_of_not_mem hline, ih hlines, List.cons_append]
  rw [writtenLines, hsplit, List.dropLast_concat]

theorem notMem_of_mem_splitOn {a : Char} {t piece : Text} (h : piece ∈ t.splitOn a) :
    a ∉ piece := by
  induction t generalizing piece with
  | nil =>
    rw [List.splitOn_nil, List.mem_singleton] at h
    simp [h]
  | cons c t ih =>
    rw [List.splitOn_cons_eq_if_modifyHead] at h
    split at h
    · rcases List.mem_cons.mp h with rfl | h
      · simp
      · exact ih h
    · rename_i hc
      obtain ⟨first, rest, hfirst⟩ := List.exists_cons_of_ne_nil (List.splitOn_ne_nil a t)
      rw [hfirst] at h ih
      rcases List.mem_cons.mp h with rfl | h
      · have hne : a ≠ c := fun heq => hc (beq_iff_eq.mpr heq.symm)
        simpa [hne] using ih (List.mem_cons_self ..)
      · exact ih (List.mem_cons_of_mem _ h)

end CellMachine.Text
