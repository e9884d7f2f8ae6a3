import CellMachine.Proofs.Text.Identifier
import Mathlib.Data.List.Basic

/-! # Trimming

Blanks at the end of a text do not count once it is trimmed (`trim_append_blanks`), and so neither
does a carriage return that is cut off there (`trim_without_return`). A text that neither starts nor
ends with a blank has nothing to trim (`trim_eq_self`); letters and digits are no blanks. Cutting a
text at its dots, blanks at the end fall to the last piece (`map_trim_splitOn_append`). -/

namespace CellMachine.Text

variable {c : Char} {t e blanks : Text}

/-! ### Blanks at the end -/

theorem trimStart_blanks_append (h : ∀ c ∈ blanks, isBlank c) (t : Text) :
    trimStart (blanks ++ t) = trimStart t := List.dropWhile_append_of_pos h

theorem trimStart_of_blanks (h : ∀ c ∈ blanks, isBlank c) : trimStart blanks = [] := by
  have happend := trimStart_blanks_append h []
  rw [List.append_nil] at happend
  exact happend

theorem trimEnd_append_blanks (h : ∀ c ∈ blanks, isBlank c) (t : Text) :
    trimEnd (t ++ blanks) = trimEnd t := by
  have hreverse : ∀ c ∈ blanks.reverse, isBlank c := fun c hc => h c (List.mem_reverse.mp hc)
  rw [trimEnd_eq, trimEnd_eq, List.reverse_append, trimStart_blanks_append hreverse]

theorem trim_append_blanks (h : ∀ c ∈ blanks, isBlank c) (t : Text) :
    trim (t ++ blanks) = trim t := by
  have happend : trimStart (t ++ blanks) =
      if (trimStart t).isEmpty then trimStart blanks else trimStart t ++ blanks :=
    List.dropWhile_append
  rw [trim, trim, happend]
  split
  · rename_i hempty
    rw [trimStart_of_blanks h, List.isEmpty_iff.mp hempty]
  · exact trimEnd_append_blanks h _

/-! ### Endings that are cut off -/

theorem without_append (e t : Text) : without e (t ++ e) = t := by
  have hsuffix : e.isSuffixOf? (t ++ e) = some t :=
    List.isSuffixOf?_eq_some_iff_append_eq.mpr rfl
  rw [without, hsuffix]
  rfl

theorem without_cases (e t : Text) : without e t = t ∨ t = without e t ++ e := by
  unfold without
  cases hsuffix : e.isSuffixOf? t with
  | none => exact Or.inl rfl
  | some u => exact Or.inr (List.isSuffixOf?_eq_some_iff_append_eq.mp hsuffix).symm

theorem mem_of_mem_without (h : c ∈ without e t) : c ∈ t := by
  rcases without_cases e t with hsame | hcut
  · rwa [hsame] at h
  · rw [hcut]
    exact List.mem_append_left e h

theorem trim_without_return (t : Text) : trim (without ['\r'] t) = trim t := by
  have hblank : ∀ c ∈ ['\r'], isBlank c := List.forall_mem_singleton.mpr (by decide)
  rcases without_cases ['\r'] t with hsame | hcut
  · rw [hsame]
  · conv_rhs => rw [hcut, trim_append_blanks hblank]

/-! ### Texts without blanks -/

theorem isBlank_of_letter_or_digit (h : Letter c ∨ Digit c) : isBlank c = false := by
  rw [letter_iff, digit_iff] at h
  simp only [isBlank, Bool.or_eq_false_iff, Bool.and_eq_false_iff, decide_eq_false_iff_not,
    beq_eq_false_iff_ne]
  omega

theorem trim_eq_self (hhead : ∀ c, t.head? = some c → isBlank c = false)
    (hlast : ∀ c, t.getLast? = some c → isBlank c = false) : trim t = t := by
  have hend : trimStart t.reverse = t.reverse := by
    refine trimStart_of_head fun c hc => hlast c ?_
    rw [← List.head?_reverse]
    exact hc
  rw [trim, trimStart_of_head hhead, trimEnd_eq, hend, List.reverse_reverse]

theorem Identifier.letter_or_digit (h : Identifier t) (hc : c ∈ t) : Letter c ∨ Digit c := by
  cases t with
  | nil => exact h.elim
  | cons d t =>
    rcases List.mem_cons.mp hc with rfl | hmem
    · exact Or.inl h.1
    · exact h.2 c hmem

theorem Identifier.head_letter (h : Identifier t) : ∃ c u, t = c :: u ∧ Letter c := by
  cases t with
  | nil => exact h.elim
  | cons c u => exact ⟨c, u, rfl, h.1⟩

theorem Identifier.head_ne (h : Identifier t) (hc : ¬ Letter c) : t.head? ≠ some c := by
  obtain ⟨d, u, rfl, hd⟩ := h.head_letter
  intro heq
  cases heq
  exact hc hd

/-! ### Pieces between dots -/

theorem dot_not_mem_blanks (h : ∀ c ∈ blanks, isBlank c) : '.' ∉ blanks :=
  fun hdot => absurd (h '.' hdot) (by decide)

/-- Blanks behind a text do not change whether it starts with a given text that ends in a dot. -/
theorem isPrefixOf?_append_blanks (h : ∀ c ∈ blanks, isBlank c) (b t : Text) :
    (b ++ ['.']).isPrefixOf? (t ++ blanks) =
      ((b ++ ['.']).isPrefixOf? t).map (· ++ blanks) := by
  cases hstart : (b ++ ['.']).isPrefixOf? t with
  | some rest =>
    have ht := List.isPrefixOf?_eq_some_iff_append_eq.mp hstart
    refine List.isPrefixOf?_eq_some_iff_append_eq.mpr ?_
    rw [← ht, List.append_assoc _ rest blanks]
  | none =>
    have hnot : ∀ u, b ++ ['.'] ++ u ≠ t := by
      intro u ht
      rw [List.isPrefixOf?_eq_some_iff_append_eq.mpr ht] at hstart
      cases hstart
    by_contra hsome
    obtain ⟨rest, hrest⟩ := Option.ne_none_iff_exists'.mp hsome
    have heq := List.isPrefixOf?_eq_some_iff_append_eq.mp hrest
    rcases List.append_eq_append_iff.mp heq with ⟨u, ht, -⟩ | ⟨u, hb, hblanks⟩
    · exact hnot u ht.symm
    · -- the dot would have to be one of the blanks
      rcases List.eq_nil_or_concat u with rfl | ⟨v, c, rfl⟩
      · exact hnot [] (by simpa using hb)
      · have hlast : b ++ ['.'] = (t ++ v) ++ [c] := by simpa using hb
        obtain ⟨-, hc⟩ := List.append_inj' hlast rfl
        obtain rfl : '.' = c := by simpa using hc
        refine dot_not_mem_blanks h ?_
        rw [hblanks]
        simp

/-- Cut at its dots, a text with blanks at its end has them at the end of its last piece. -/
theorem exists_splitOn_append (hdot : '.' ∉ blanks) (t : Text) : ∃ pieces last,
    t.splitOn '.' = pieces ++ [last] ∧ (t ++ blanks).splitOn '.' = pieces ++ [last ++ blanks] := by
  induction t with
  | nil => exact ⟨[], [], rfl, List.splitOn_eq_singleton hdot⟩
  | cons c t ih =>
    obtain ⟨pieces, last, ht, happend⟩ := ih
    rw [List.cons_append, List.splitOn_cons_eq_if_modifyHead, List.splitOn_cons_eq_if_modifyHead,
      ht, happend]
    split
    · exact ⟨[] :: pieces, last, rfl, rfl⟩
    · cases pieces with
      | nil => exact ⟨[], c :: last, rfl, rfl⟩
      | cons piece pieces => exact ⟨(c :: piece) :: pieces, last, rfl, rfl⟩

theorem map_trim_splitOn_append (h : ∀ c ∈ blanks, isBlank c) (t : Text) :
    ((t ++ blanks).splitOn '.').map trim = (t.splitOn '.').map trim := by
  obtain ⟨pieces, last, ht, happend⟩ := exists_splitOn_append (dot_not_mem_blanks h) t
  rw [ht, happend, List.map_append, List.map_append, List.map_singleton, List.map_singleton,
    trim_append_blanks h]

end CellMachine.Text
