/-! # Texts

Everything the machine reads and writes is a *text*, a list of characters. Lines, names, mnemonics
and messages are all texts, so the list library is the only library they need.

* `isBlank`: the blank characters, those of the Unicode property `White_Space`.
* `trimStart`, `trimEnd`, `trim`: a text without the blanks on one end or on both.
* `without`: a text without a given ending, where it has it.
* `between?`: the inner part of a text that stands between two given texts.
* `trim_trim`: trimming twice is trimming once. -/

namespace CellMachine

/-- A text is its list of characters. -/
abbrev Text := List Char

namespace Text

/-! ## Blanks -/

/-- **Blank characters.** The 25 code points of the Unicode property `White_Space`. -/
def isBlank (c : Char) : Bool :=
  let n := c.toNat
  (0x9 ≤ n && n ≤ 0xD) || n == 0x20 || n == 0x85 || n == 0xA0 || n == 0x1680 ||
    (0x2000 ≤ n && n ≤ 0x200A) || n == 0x2028 || n == 0x2029 || n == 0x202F || n == 0x205F ||
    n == 0x3000

/-- The text from its first character that is not blank. -/
def trimStart (t : Text) : Text := t.dropWhile isBlank

/-- The text up to its last character that is not blank. -/
def trimEnd (t : Text) : Text := (t.reverse.dropWhile isBlank).reverse

/-- The text from its first to its last character that is not blank. -/
def trim (t : Text) : Text := trimEnd (trimStart t)

/-- A text that does not start with a blank has nothing to trim at its start. -/
theorem trimStart_of_head {t : Text} (h : ∀ c, t.head? = some c → isBlank c = false) :
    trimStart t = t := by
  cases t with
  | nil => rfl
  | cons c t => simp [trimStart, h c rfl]

/-- What is left after trimming at the start does not start with a blank. -/
theorem isBlank_head_trimStart {t : Text} {c : Char} (h : (trimStart t).head? = some c) :
    isBlank c = false := by
  induction t with
  | nil => simp [trimStart] at h
  | cons d t ih =>
    simp only [trimStart, List.dropWhile_cons] at h ih
    split at h
    · exact ih h
    · rename_i hd
      simp only [List.head?_cons, Option.some.injEq] at h
      subst h; simpa using hd

theorem trimStart_trimStart (t : Text) : trimStart (trimStart t) = trimStart t :=
  trimStart_of_head fun _ => isBlank_head_trimStart

theorem trimEnd_eq (t : Text) : trimEnd t = (trimStart t.reverse).reverse := rfl

theorem trimEnd_trimEnd (t : Text) : trimEnd (trimEnd t) = trimEnd t := by
  simp [trimEnd_eq, trimStart_trimStart]

/-- Trimming at the end leaves a beginning of the text. -/
theorem exists_trimEnd_append (t : Text) :
    ∃ blanks : Text, t = trimEnd t ++ blanks ∧ ∀ c ∈ blanks, isBlank c := by
  refine ⟨(t.reverse.takeWhile isBlank).reverse, ?_, fun c hc => ?_⟩
  · rw [trimEnd, ← List.reverse_append, List.takeWhile_append_dropWhile, List.reverse_reverse]
  · have := List.all_takeWhile (p := isBlank) (l := t.reverse)
    rw [List.all_eq_true] at this
    exact this c (List.mem_reverse.mp hc)

/-- A trimmed text has nothing to trim at its start. -/
theorem trimStart_trim (t : Text) : trimStart (trim t) = trim t := by
  refine trimStart_of_head fun c hc => ?_
  obtain ⟨blanks, hb, -⟩ := exists_trimEnd_append (trimStart t)
  refine isBlank_head_trimStart (t := t) ?_
  rw [hb, List.head?_append]
  rw [trim] at hc
  simp [hc]

/-- **Trimming twice is trimming once.** -/
theorem trim_trim (t : Text) : trim (trim t) = trim t := by
  rw [trim, trimStart_trim, trim, trimEnd_trimEnd]

/-! ## Fixed beginnings and endings -/

/-- The text `t` without the ending `e`, once; `t` itself when it does not end so. -/
def without (e t : Text) : Text := (e.isSuffixOf? t).getD t

/-- The part of `t` between the beginning `b` and the ending `e`, if `t` is `b`, that part, `e`. -/
def between? (b e t : Text) : Option Text := do
  let rest ← b.isPrefixOf? t
  e.isSuffixOf? rest

end Text

end CellMachine
