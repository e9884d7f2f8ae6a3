import CellMachine.Proofs.Script.Grammar

/-! # What lines mean

The meaning of a line depends on its trimmed text only (`classify_congr`). A *meaningful* line is
neither blank nor a comment; what such a line means is decided by whether a routine is being defined
(`classify_of_meaningful`).

* `classify_of_assigns`, `classify_of_opens`: the meaning of lines that assign and of lines that open
  a definition, outside of definitions. Whatever the identifier, `def` and an identifier open the
  definition of a routine of that name (`classify_definition`).
* `classify_call`: a complete routine is called by its name alone and by its name with `()`, save
  that `exit()` always ends the session. -/

namespace CellMachine

open Text (Identifier)

namespace Text

theorem isPrefixOf?_of_head {c : Char} {t : Text} (h : t.head? ≠ some c) :
    [c].isPrefixOf? t = none := by
  cases t with
  | nil => rfl
  | cons d t =>
    have hne : c ≠ d := fun heq => h (by rw [heq]; rfl)
    simp [List.isPrefixOf?, hne]

end Text

namespace Line

variable {routine : Option Routine} {r : Routine} {line t f : Text}

/-- Whether a line is neither blank nor a comment. -/
def isMeaningful (line : Text) : Bool := Text.trim line != [] && !isComment (Text.trim line)

theorem isMeaningful_eq_false_iff :
    isMeaningful line = false ↔ Text.trim line = [] ∨ (Text.trim line).head? = some '#' := by
  simp [isMeaningful, isComment, or_iff_not_imp_left]

theorem classify_congr {line' : Text} (h : Text.trim line = Text.trim line') :
    classify routine line = classify routine line' := by
  rw [classify, classify, h]

theorem classify_of_not_meaningful (hexit : Text.trim line ≠ "exit()".toList)
    (h : isMeaningful line = false) : classify routine line = .ignored := by
  have hignored : Text.trim line = [] ∨ isComment (Text.trim line) := by
    simpa [isComment] using isMeaningful_eq_false_iff.mp h
  rw [classify, if_neg hexit, if_pos hignored]

theorem classify_of_meaningful (hexit : Text.trim line ≠ "exit()".toList)
    (h : isMeaningful line) : classify routine line =
      if capturing routine then if Text.trim line = "end".toList then closing else body
      else statement routine (Text.trim line) := by
  have hignored : ¬ (Text.trim line = [] ∨ isComment (Text.trim line)) := by
    simpa [isMeaningful] using h
  rw [classify, if_neg hexit, if_neg hignored]

/-! ## Definitions and calls -/

theorem assignment?_name_append {name rest : Text} (hname : Identifier name)
    (hrest : ∀ c, rest.head? = some c → Text.isNameChar c = false)
    (hequals : (Text.trimStart rest).head? ≠ some '=') : assignment? (name ++ rest) = none := by
  rw [assignment?, Text.binding?_name_append hname hrest, Text.isPrefixOf?_of_head hequals]
  rfl

theorem isMeaningful_of_identifier {name rest : Text} (hname : Identifier name)
    (htrim : Text.trim line = name ++ rest) : isMeaningful line := by
  obtain ⟨c, u, rfl, hc⟩ := hname.head_letter
  have hsharp : c ≠ '#' := by
    rintro rfl
    exact absurd hc (by decide)
  simp [isMeaningful, isComment, htrim, hsharp]

section Assigns

variable {name : Text} {value : Nat} (h : Assigns line name value)
include h

theorem Assigns.isMeaningful : isMeaningful line := by
  obtain ⟨hname, b₁, b₂, digits, -, -, -, htrim⟩ :=
    assignment?_eq_some_iff.mp (assignment?_trim_iff.mpr h)
  exact isMeaningful_of_identifier hname htrim

theorem Assigns.trim_ne_exit : Text.trim line ≠ "exit()".toList := by
  obtain ⟨-, b₁, b₂, digits, -, -, -, htrim⟩ :=
    assignment?_eq_some_iff.mp (assignment?_trim_iff.mpr h)
  intro heq
  have hequals : '=' ∈ Text.trim line := by
    rw [htrim]
    simp
  rw [heq] at hequals
  exact absurd hequals (by decide)

theorem Assigns.unique {name' : Text} {value' : Nat} (h' : Assigns line name' value') :
    name' = name ∧ value' = value := by
  have hsame := (assignment?_trim_iff.mpr h').symm.trans (assignment?_trim_iff.mpr h)
  exact Prod.mk.inj (Option.some.inj hsame)

/-- **Lines that assign** do so outside of definitions, unless no word holds the number. -/
theorem classify_of_assigns (hopen : capturing routine = false) :
    classify routine line = (Word.ofInt? value).elim unrecognized (assignment name) := by
  rw [classify_of_meaningful h.trim_ne_exit h.isMeaningful, hopen, if_neg Bool.false_ne_true,
    statement, assignment?_trim_iff.mpr h]

end Assigns

section Opens

variable (h : Opens line f)
include h

theorem Opens.isMeaningful : isMeaningful line := by
  obtain ⟨-, blanks, -, -, htrim⟩ := opening?_eq_some_iff.mp (opening?_trim_iff.mpr h)
  have hkeyword : Identifier "def".toList := by decide
  exact isMeaningful_of_identifier hkeyword htrim

theorem Opens.trim_ne_exit : Text.trim line ≠ "exit()".toList := by
  obtain ⟨-, blanks, -, -, htrim⟩ := opening?_eq_some_iff.mp (opening?_trim_iff.mpr h)
  rw [htrim]
  intro heq
  cases heq

/-- The keyword is itself a name, but what follows it is no equals sign. -/
theorem Opens.assignment?_eq_none : assignment? (Text.trim line) = none := by
  obtain ⟨hf, blanks, hblanks, hne, htrim⟩ := opening?_eq_some_iff.mp (opening?_trim_iff.mpr h)
  obtain ⟨c, u, rfl⟩ := List.exists_cons_of_ne_nil hne
  obtain ⟨d, v, rfl, hd⟩ := hf.head_letter
  have hkeyword : Identifier "def".toList := by decide
  have hletter : Text.trimStart (d :: v) = d :: v := by
    refine Text.trimStart_of_head fun e he => ?_
    cases he
    exact Text.isBlank_of_letter_or_digit (Or.inl hd)
  rw [htrim]
  refine assignment?_name_append hkeyword (fun e he => ?_) ?_
  · cases he
    exact Text.isNameChar_of_isBlank (hblanks c (List.mem_cons_self ..))
  · rw [Text.trimStart_blanks_append hblanks, hletter]
    exact hf.head_ne (by decide)

theorem Opens.not_assigns {name : Text} {value : Nat} : ¬ Assigns line name value := by
  intro hassigns
  have hassign := assignment?_trim_iff.mpr hassigns
  rw [h.assignment?_eq_none] at hassign
  cases hassign

theorem classify_of_opens (hopen : capturing routine = false) :
    classify routine line = .opening f := by
  rw [classify_of_meaningful h.trim_ne_exit h.isMeaningful, hopen, if_neg Bool.false_ne_true,
    statement, h.assignment?_eq_none, opening?_trim_iff.mpr h]

end Opens

theorem classify_definition (hf : Identifier f) (h : capturing routine = false) :
    classify routine ("def ".toList ++ f) = .opening f := by
  have hblank : Text.Blanks [' '] := List.forall_mem_singleton.mpr (by decide)
  refine classify_of_opens ⟨hf, [' '], hblank, List.cons_ne_nil _ _, [], [], nofun, nofun, ?_⟩ h
  simp

theorem not_mem_name {c : Char} {name : Text} (hname : Identifier name)
    (hc : ¬ (Text.Letter c ∨ Text.Digit c)) : c ∉ name :=
  fun hmem => hc (hname.letter_or_digit hmem)

/-- The texts that call a routine: its name, with or without `()` behind it. -/
theorem isCalledBy_of_name (hname : Identifier r.name) (htrim : Text.trim t = t)
    (ht : t = r.name ∨ t = r.name ++ "()".toList) : r.isCalledBy t := by
  have hcut : Text.without "()".toList t = r.name := by
    rcases ht with rfl | rfl
    · rcases Text.without_cases "()".toList r.name with hsame | hcut
      · exact hsame
      · have hmem : '(' ∈ r.name := by
          rw [hcut]
          simp
        exact absurd hmem (not_mem_name hname (by decide))
    · exact Text.without_append _ _
  rw [Routine.isCalledBy, htrim, hcut]
  exact beq_self_eq_true _

theorem eq_name_of_isCalledBy (h : r.isCalledBy t) :
    Text.trim t = r.name ∨ Text.trim t = r.name ++ "()".toList := by
  have hcut : Text.without "()".toList (Text.trim t) = r.name := by
    simpa [Routine.isCalledBy] using h
  rcases Text.without_cases "()".toList (Text.trim t) with hsame | happend
  · exact Or.inl (hsame.symm.trans hcut)
  · rw [hcut] at happend
    exact Or.inr happend

theorem opening?_of_no_blank (h : ∀ c ∈ t, Text.isBlank c = false) : opening? t = none := by
  unfold opening?
  cases hdef : "def".toList.isPrefixOf? t with
  | none => rfl
  | some rest =>
    have htext := List.isPrefixOf?_eq_some_iff_append_eq.mp hdef
    have hhead : rest.head?.any Text.isBlank = false := by
      cases rest with
      | nil => rfl
      | cons c rest => exact h c (by rw [← htext]; simp)
    simp [hhead]

theorem classify_call (hname : Identifier r.name) (hclosed : r.closed = true)
    (h : Text.trim line = r.name ∨
      Text.trim line = r.name ++ "()".toList ∧ r.name ≠ "exit".toList) :
    classify (some r) line = .call := by
  obtain ⟨rest, hrest, htrim⟩ : ∃ rest, (rest = [] ∨ rest = "()".toList) ∧
      Text.trim line = r.name ++ rest := by
    rcases h with h | ⟨h, -⟩
    · exact ⟨[], Or.inl rfl, by rw [h, List.append_nil]⟩
    · exact ⟨_, Or.inr rfl, h⟩
  have hexit : Text.trim line ≠ "exit()".toList := by
    intro heq
    rcases h with h | ⟨h, hne⟩
    · rw [← h, heq] at hname
      exact absurd hname (by decide)
    · have hparts : "exit()".toList = "exit".toList ++ "()".toList := rfl
      rw [heq, hparts] at h
      exact hne (List.append_cancel_right h.symm)
  have hassign : assignment? (Text.trim line) = none := by
    rw [htrim]
    refine assignment?_name_append hname (fun c hc => ?_) ?_
    · rcases hrest with rfl | rfl
      · cases hc
      · cases hc
        decide
    · rcases hrest with rfl | rfl <;> decide
  have hopening : opening? (Text.trim line) = none := by
    have hblank : rest.all (fun c => !Text.isBlank c) = true := by
      rcases hrest with rfl | rfl <;> decide
    refine opening?_of_no_blank fun c hc => ?_
    rw [htrim] at hc
    rcases List.mem_append.mp hc with hc | hc
    · exact Text.isBlank_of_letter_or_digit (hname.letter_or_digit hc)
    · simpa using List.all_eq_true.mp hblank c hc
  have hcalled : r.isCalledBy (Text.trim line) := by
    refine isCalledBy_of_name hname (Text.trim_trim line) ?_
    rcases h with h | ⟨h, -⟩
    · exact Or.inl h
    · exact Or.inr h
  have hopen : capturing (some r) = false := by
    show (!r.closed) = false
    rw [hclosed]
    rfl
  have hany : (some r).any (·.isCalledBy (Text.trim line)) = true := hcalled
  rw [classify_of_meaningful hexit (isMeaningful_of_identifier hname htrim), hopen,
    if_neg Bool.false_ne_true, statement, hassign, hopening, if_pos hany]

end Line

end CellMachine
