import CellMachine.Proofs.Script.Grammar
import Mathlib.Algebra.Ring.Int.Defs

/-! # The grammar of actions

A link of a chain spells out an action in one of three forms: `set_address(word)`,
`insert("mnemonic")` with or without an operand behind a comma, and `execute()`. Blanks may stand
between the parts of a form and around all of it. A word in the place of an operand is a literal
when it is a numeral behind an optional minus, with a value in the range of words, and the name of a
variable when it is anything else.

* `Text.OperandWord`, `Text.Letters`, `Text.Signed`: words, mnemonics and signed numerals;
  `isWord_iff`, `toInt?_eq_some_iff`: what they are read as.
* `Operand.Denotes`, `ofText_eq_iff_denotes`: what an operand word stands for.
* `Spelling`, `Spells`: what an action is spelt with, and the forms; `Spells.unique`: a text has one
  form, with one mnemonic and one word.
* `setAddress?_eq_some_iff`, `insert?_eq_some_iff`, `execute?_eq_some_iff`: what the readers accept.
* `ofText?_iff_spells`: the action that is read is the one that is spelt out. -/

namespace CellMachine

namespace Text

variable {t blanks word : Text} {c : Char} {i : Int}

/-! ## Words and numerals -/

/-- **Operand words.** One or more letters and digits behind an optional minus. -/
def OperandWord (t : Text) : Prop :=
  ∃ body, (t = body ∨ t = '-' :: body) ∧ body ≠ [] ∧ ∀ c ∈ body, Letter c ∨ Digit c

/-- **Mnemonics as they are spelt.** One or more letters. -/
def Letters (t : Text) : Prop := t ≠ [] ∧ ∀ c ∈ t, Letter c

/-- **Signed numerals.** A numeral behind an optional minus, and the integer that it denotes. -/
def Signed (t : Text) (i : Int) : Prop :=
  ∃ digits n, Numeral digits n ∧ (t = digits ∧ i = n ∨ t = '-' :: digits ∧ i = -(n : Int))

theorem isWord_iff : isWord t ↔ OperandWord t := by
  have hbody : ∀ body : Text, (!body.isEmpty && body.all isNameChar) = true ↔
      body ≠ [] ∧ ∀ c ∈ body, Letter c ∨ Digit c := by
    intro body
    simp only [Bool.and_eq_true, Bool.not_eq_true', List.isEmpty_eq_false_iff, List.all_eq_true,
      isNameChar_iff]
  have hread : isWord t ↔ (['-'].isPrefixOf? t).getD t ≠ [] ∧
      ∀ c ∈ (['-'].isPrefixOf? t).getD t, Letter c ∨ Digit c := hbody _
  rw [hread, OperandWord]
  constructor
  · intro h
    refine ⟨_, ?_, h⟩
    cases hminus : ['-'].isPrefixOf? t with
    | none => exact Or.inl rfl
    | some body => exact Or.inr (List.isPrefixOf?_eq_some_iff_append_eq.mp hminus).symm
  · rintro ⟨body, rfl | rfl, hne, hall⟩
    · -- a minus is neither a letter nor a digit, so nothing is cut off
      have hnone : ['-'].isPrefixOf? t = none := by
        rw [Option.eq_none_iff_forall_not_mem]
        intro rest hrest
        have ht := List.isPrefixOf?_eq_some_iff_append_eq.mp hrest
        exact absurd (hall '-' (by rw [← ht]; simp)) (by decide)
      rw [hnone]
      exact ⟨hne, hall⟩
    · have hsome : ['-'].isPrefixOf? ('-' :: body) = some body :=
        List.isPrefixOf?_eq_some_iff_append_eq.mpr rfl
      rw [hsome]
      exact ⟨hne, hall⟩

theorem OperandWord.not_blank (h : OperandWord t) : ∀ c ∈ t, isBlank c = false := by
  obtain ⟨body, rfl | rfl, -, hall⟩ := h
  · exact fun c hc => isBlank_of_letter_or_digit (hall c hc)
  · intro c hc
    rcases List.mem_cons.mp hc with rfl | hc
    · decide
    · exact isBlank_of_letter_or_digit (hall c hc)

theorem OperandWord.trim_padded (h : OperandWord word) {before behind : Text}
    (hbefore : Blanks before) (hbehind : Blanks behind) : trim (before ++ word ++ behind) = word :=
  (padded_iff (trim_of_no_blank h.not_blank)).mp ⟨before, behind, hbefore, hbehind, rfl⟩

theorem operandWord_ofInt (i : Int) : OperandWord (ofInt i) := by
  have hdigits : ∀ n, ∀ c ∈ ofNat n, Letter c ∨ Digit c :=
    fun n c hc => Or.inr (isDigit_iff.mp (isDigit_of_mem_ofNat hc))
  cases i with
  | ofNat n => exact ⟨_, Or.inl rfl, ofNat_ne_nil n, hdigits n⟩
  | negSucc n => exact ⟨_, Or.inr rfl, ofNat_ne_nil (n + 1), hdigits (n + 1)⟩

theorem toInt?_eq_some_iff (h : OperandWord t) : toInt? t = some i ↔ Signed t i := by
  obtain ⟨body, rfl | rfl, hne, hall⟩ := h
  · obtain ⟨c, u, rfl⟩ := List.exists_cons_of_ne_nil hne
    have hread : toInt? (c :: u) = (toNat? (c :: u)).map fun n : Nat => (n : Int) := by
      rcases hall c (List.mem_cons_self ..) with hletter | hdigit
      · have hnat : toNat? (c :: u) = none := by
          rw [Option.eq_none_iff_forall_not_mem]
          intro n hn
          have hnumeral := toNat?_eq_some_iff.mp hn
          exact hletter.not_digit (hnumeral.2.1 c (List.mem_cons_self ..))
        rw [toInt?_of_letter hletter, hnat]
        rfl
      · rw [toInt?_of_isDigit (isDigit_iff.mpr hdigit)]
        cases toNat? (c :: u) <;> rfl
    rw [hread, Option.map_eq_some_iff]
    constructor
    · rintro ⟨n, hn, rfl⟩
      exact ⟨_, n, toNat?_eq_some_iff.mp hn, Or.inl ⟨rfl, rfl⟩⟩
    · rintro ⟨digits, n, hdigits, ⟨rfl, rfl⟩ | ⟨hminus, -⟩⟩
      · exact ⟨n, toNat?_eq_some_iff.mpr hdigits, rfl⟩
      · cases hminus
        exact absurd (hall '-' (List.mem_cons_self ..)) (by decide)
  · have hread : toInt? ('-' :: body) = (toNat? body).map fun n : Nat => -(n : Int) := by
      rw [toInt?]
      cases toNat? body <;> rfl
    rw [hread, Option.map_eq_some_iff]
    constructor
    · rintro ⟨n, hn, rfl⟩
      exact ⟨body, n, toNat?_eq_some_iff.mp hn, Or.inr ⟨rfl, rfl⟩⟩
    · rintro ⟨digits, n, hdigits, ⟨rfl, -⟩ | ⟨hminus, rfl⟩⟩
      · exact absurd (hdigits.2.1 '-' (List.mem_cons_self ..)) (by decide)
      · cases hminus
        exact ⟨n, toNat?_eq_some_iff.mpr hdigits, rfl⟩

/-! ## Trimming around a quotation -/

theorem trimEnd_append_cons (hc : isBlank c = false) (s t : Text) :
    trimEnd (s ++ c :: t) = s ++ c :: trimEnd t := by
  have hsplit : (s ++ c :: t).reverse = t.reverse ++ (c :: s.reverse) := by simp
  have hkeep : (c :: s.reverse).dropWhile isBlank = c :: s.reverse :=
    List.dropWhile_cons_of_neg (by simp [hc])
  rw [trimEnd, trimEnd, hsplit, List.dropWhile_append, hkeep]
  split
  · rename_i hempty
    rw [List.isEmpty_iff.mp hempty]
    simp
  · simp

theorem trimStart_blanks_append_cons (hblanks : Blanks blanks) (hc : isBlank c = false) (t : Text) :
    trimStart (blanks ++ c :: t) = c :: t := by
  rw [trimStart_blanks_append hblanks]
  exact trimStart_of_head fun d hd => by cases hd; exact hc

theorem span_letters (h : ∀ c ∈ word, Letter c) (rest : Text) :
    (word ++ '"' :: rest).takeWhile isNameStart = word ∧
      (word ++ '"' :: rest).dropWhile isNameStart = '"' :: rest := by
  have hall : ∀ c ∈ word, isNameStart c := fun c hc => isNameStart_iff.mpr (h c hc)
  have hquote : ¬ isNameStart '"' = true := by decide
  rw [List.takeWhile_append_of_pos hall, List.dropWhile_append_of_pos hall,
    List.takeWhile_cons_of_neg hquote, List.dropWhile_cons_of_neg hquote, List.append_nil]
  exact ⟨rfl, rfl⟩

theorem trimStart_trimEnd (t : Text) : trimStart (trimEnd t) = trim t := by
  obtain ⟨blanks, hblanks, ht⟩ := exists_trimStart_append t
  rw [trim]
  cases hstart : trimStart t with
  | nil =>
    rw [hstart, List.append_nil] at ht
    have hend := trimEnd_append_blanks hblanks []
    rw [List.nil_append] at hend
    rw [ht, hend]
    rfl
  | cons c u =>
    have hc : isBlank c = false := isBlank_head_trimStart (by rw [hstart]; rfl)
    rw [hstart] at ht
    rw [ht, trimEnd_append_cons hc, trimStart_blanks_append_cons hblanks hc]
    exact (trimEnd_append_cons hc [] u).symm

/-- Blanks are trimmed around a quotation, and at the end of what follows it. -/
theorem trim_quoted (hblanks : Blanks blanks) (word rest : Text) :
    trim (blanks ++ '"' :: (word ++ '"' :: rest)) = '"' :: (word ++ '"' :: trimEnd rest) := by
  have hquote : isBlank '"' = false := by decide
  rw [trim, trimStart_blanks_append_cons hblanks hquote]
  exact trimEnd_append_cons hquote ('"' :: word) rest

theorem quoted_inj {b b' m m' rest rest' : Text} (hb : Blanks b) (hb' : Blanks b')
    (hm : Letters m) (hm' : Letters m')
    (h : b ++ '"' :: (m ++ '"' :: rest) = b' ++ '"' :: (m' ++ '"' :: rest')) :
    m = m' ∧ rest = rest' := by
  have hquote : isBlank '"' = false := by decide
  have hquoted := congrArg trimStart h
  rw [trimStart_blanks_append_cons hb hquote, trimStart_blanks_append_cons hb' hquote] at hquoted
  have hinner := (List.cons.inj hquoted).2
  obtain ⟨htake, hdrop⟩ := span_letters hm.2 rest
  obtain ⟨htake', hdrop'⟩ := span_letters hm'.2 rest'
  rw [hinner, htake'] at htake
  rw [hinner, hdrop'] at hdrop
  exact ⟨htake.symm, (List.cons.inj hdrop).2.symm⟩

end Text

open Text

/-! ## Operands -/

theorem Word.ofInt?_eq_none_iff {i : Int} : Word.ofInt? i = none ↔ i < -2 ^ 63 ∨ 2 ^ 63 ≤ i := by
  have hmin : Int64.minValue.toInt = -2 ^ 63 := by decide
  have hmax : Int64.maxValue.toInt = 2 ^ 63 - 1 := by decide
  rw [Word.ofInt?, hmin, hmax]
  split
  · simp only [reduceCtorEq, false_iff]
    omega
  · simp only [true_iff]
    omega

theorem Word.ofText?_eq_some_iff {word : Text} {value : Word} (h : OperandWord word) :
    Word.ofText? word = some value ↔ Signed word value.toInt := by
  rw [Word.ofText?, Option.bind_eq_some_iff]
  constructor
  · rintro ⟨i, hi, hvalue⟩
    rw [Word.toInt_of_ofInt? hvalue]
    exact (toInt?_eq_some_iff h).mp hi
  · intro hsigned
    exact ⟨_, (toInt?_eq_some_iff h).mpr hsigned, Word.ofInt?_toInt value⟩

theorem Word.ofText?_eq_none_iff {word : Text} (h : OperandWord word) :
    Word.ofText? word = none ↔ ∀ i, Signed word i → i < -2 ^ 63 ∨ 2 ^ 63 ≤ i := by
  rw [Word.ofText?, Option.bind_eq_none_iff]
  simp only [toInt?_eq_some_iff h, Word.ofInt?_eq_none_iff]

namespace Operand

/-- **What a word stands for in the place of an operand.** A signed numeral stands for its value,
where that is in the range of words; any other word is the name of a variable. -/
inductive Denotes : Text → Operand → Prop
  | literal {word : Text} {value : Word} (h : Signed word value.toInt) :
      Denotes word (literal value)
  | named {word : Text} (h : ∀ i, Signed word i → i < -2 ^ 63 ∨ 2 ^ 63 ≤ i) :
      Denotes word (named word)

theorem ofText_eq_iff_denotes {word : Text} {o : Operand} (h : OperandWord word) :
    ofText word = o ↔ Denotes word o := by
  rw [ofText]
  cases hread : Word.ofText? word with
  | some value =>
    constructor
    · rintro rfl
      exact Denotes.literal ((Word.ofText?_eq_some_iff h).mp hread)
    · rintro (hsigned | hrange)
      · have hvalue := (Word.ofText?_eq_some_iff h).mpr hsigned
        rw [hread] at hvalue
        rw [Option.some.inj hvalue]
      · rw [(Word.ofText?_eq_none_iff h).mpr hrange] at hread
        cases hread
  | none =>
    constructor
    · rintro rfl
      exact Denotes.named ((Word.ofText?_eq_none_iff h).mp hread)
    · rintro (hsigned | hrange)
      · rw [(Word.ofText?_eq_some_iff h).mpr hsigned] at hread
        cases hread
      · rfl

theorem ofText_text (w : Word) : ofText w.text = literal w := by
  rw [ofText, Word.ofText?_text]

end Operand

/-! ## Forms -/

/-- **What an action is spelt with:** which of the three it is, with its mnemonic and its operand as
they are written. -/
inductive Spelling where
  | setAddress (word : Text)
  | insert (mnemonic : Text) (word : Option Text)
  | execute

/-- **What follows the mnemonic of an insertion:** blanks, or a comma and a word among blanks. -/
def Follows (rest : Text) : Option Text → Prop
  | none => Blanks rest
  | some word => ∃ b₁ b₂ b₃, Blanks b₁ ∧ Blanks b₂ ∧ Blanks b₃ ∧ OperandWord word ∧
      rest = b₁ ++ ',' :: (b₂ ++ word ++ b₃)

/-- **The three forms:** `set_address(word)`, `insert("mnemonic")` or `insert("mnemonic", word)`,
and `execute()`, with blanks between the parts. -/
def Spells (t : Text) : Spelling → Prop
  | .setAddress word => ∃ b₁ b₂, Blanks b₁ ∧ Blanks b₂ ∧ OperandWord word ∧
      t = "set_address(".toList ++ (b₁ ++ word ++ b₂) ++ ")".toList
  | .insert mnemonic word => ∃ b rest, Blanks b ∧ Letters mnemonic ∧ Follows rest word ∧
      t = "insert(".toList ++ (b ++ '"' :: (mnemonic ++ '"' :: rest)) ++ ")".toList
  | .execute => ∃ b, Blanks b ∧ t = "execute(".toList ++ b ++ ")".toList

namespace Spelling

/-- The action that is read from a spelling. -/
def action : Spelling → Action
  | setAddress word => .setAddress (Operand.ofText word)
  | insert mnemonic word => .insert mnemonic (word.map Operand.ofText)
  | execute => .execute

/-- **The action that a spelling stands for.** -/
inductive Denotes : Spelling → Action → Prop
  | setAddress {word : Text} {o : Operand} (h : Operand.Denotes word o) :
      Denotes (setAddress word) (.setAddress o)
  | insert (mnemonic : Text) : Denotes (insert mnemonic none) (.insert mnemonic none)
  | insertOperand (mnemonic : Text) {word : Text} {o : Operand} (h : Operand.Denotes word o) :
      Denotes (insert mnemonic (some word)) (.insert mnemonic (some o))
  | execute : Denotes execute .execute

end Spelling

theorem Spells.denotes_iff {t : Text} {s : Spelling} {action : Action} (h : Spells t s) :
    s.Denotes action ↔ s.action = action := by
  cases s with
  | setAddress word =>
    obtain ⟨-, -, -, -, hword, -⟩ := h
    constructor
    · rintro ⟨ho⟩
      rw [Spelling.action, (Operand.ofText_eq_iff_denotes hword).mpr ho]
    · rintro rfl
      exact Spelling.Denotes.setAddress ((Operand.ofText_eq_iff_denotes hword).mp rfl)
  | insert mnemonic word =>
    obtain ⟨-, rest, -, -, hfollows, -⟩ := h
    cases word with
    | none =>
      constructor
      · rintro ⟨-⟩
        rfl
      · rintro rfl
        exact Spelling.Denotes.insert mnemonic
    | some word =>
      obtain ⟨-, -, -, -, -, -, hword, -⟩ := hfollows
      constructor
      · rintro (_ | _ | ⟨_, ho⟩)
        rw [Spelling.action, Option.map_some, (Operand.ofText_eq_iff_denotes hword).mpr ho]
      · rintro rfl
        exact Spelling.Denotes.insertOperand mnemonic ((Operand.ofText_eq_iff_denotes hword).mp rfl)
  | execute =>
    constructor
    · rintro ⟨-⟩
      rfl
    · rintro rfl
      exact Spelling.Denotes.execute

/-! ### One form for each text -/

theorem Follows.trim_operand {rest word : Text} (h : Follows rest (some word)) :
    ∃ operand, trim rest = ',' :: operand ∧ trimStart operand = word := by
  obtain ⟨b₁, b₂, b₃, hb₁, hb₂, hb₃, hword, rfl⟩ := h
  have hcomma : isBlank ',' = false := by decide
  refine ⟨trimEnd (b₂ ++ word ++ b₃), ?_, ?_⟩
  · rw [trim, trimStart_blanks_append_cons hb₁ hcomma]
    exact trimEnd_append_cons hcomma [] _
  · rw [trimStart_trimEnd, hword.trim_padded hb₂ hb₃]

theorem Follows.trim_blanks {rest : Text} (h : Follows rest none) : trim rest = [] := by
  have hend := trim_append_blanks h []
  rw [List.nil_append] at hend
  exact hend

theorem Follows.unique {rest : Text} {word word' : Option Text} (h : Follows rest word)
    (h' : Follows rest word') : word = word' := by
  cases word with
  | none =>
    cases word' with
    | none => rfl
    | some word' =>
      obtain ⟨operand, hoperand, -⟩ := h'.trim_operand
      rw [h.trim_blanks] at hoperand
      cases hoperand
  | some word =>
    obtain ⟨operand, hoperand, rfl⟩ := h.trim_operand
    cases word' with
    | none =>
      rw [h'.trim_blanks] at hoperand
      cases hoperand
    | some word' =>
      obtain ⟨operand', hoperand', rfl⟩ := h'.trim_operand
      rw [hoperand] at hoperand'
      rw [(List.cons.inj hoperand').2]

/-- The first character tells the three forms apart. -/
def Spelling.initial : Spelling → Char
  | setAddress _ => 's'
  | insert _ _ => 'i'
  | execute => 'e'

theorem Spells.head? {t : Text} {s : Spelling} (h : Spells t s) : t.head? = some s.initial := by
  cases s with
  | setAddress word =>
    obtain ⟨b₁, b₂, -, -, -, rfl⟩ := h
    rfl
  | insert mnemonic word =>
    obtain ⟨b, rest, -, -, -, rfl⟩ := h
    rfl
  | execute =>
    obtain ⟨b, -, rfl⟩ := h
    rfl

theorem Spells.unique {t : Text} {s s' : Spelling} (h : Spells t s) (h' : Spells t s') :
    s = s' := by
  have hinitial : s.initial = s'.initial := Option.some.inj (h.head?.symm.trans h'.head?)
  cases s with
  | setAddress word =>
    cases s' with
    | setAddress word' =>
      obtain ⟨b₁, b₂, hb₁, hb₂, hword, rfl⟩ := h
      obtain ⟨b₁', b₂', hb₁', hb₂', hword', heq⟩ := h'
      have htrim := congrArg trim (List.append_cancel_left (List.append_cancel_right heq))
      rw [hword.trim_padded hb₁ hb₂, hword'.trim_padded hb₁' hb₂'] at htrim
      rw [htrim]
    | insert => cases hinitial
    | execute => cases hinitial
  | insert mnemonic word =>
    cases s' with
    | insert mnemonic' word' =>
      obtain ⟨b, rest, hb, hm, hrest, rfl⟩ := h
      obtain ⟨b', rest', hb', hm', hrest', heq⟩ := h'
      have hinner := List.append_cancel_left (List.append_cancel_right heq)
      obtain ⟨rfl, rfl⟩ := quoted_inj hb hb' hm hm' hinner
      rw [hrest.unique hrest']
    | setAddress => cases hinitial
    | execute => cases hinitial
  | execute =>
    cases s' with
    | execute => rfl
    | setAddress => cases hinitial
    | insert => cases hinitial

namespace Action

variable {t rest : Text} {action : Action}

/-! ## Readers -/

theorem setAddress?_eq_some_iff : setAddress? t = some action ↔
    ∃ word, Spells t (.setAddress word) ∧ (Spelling.setAddress word).action = action := by
  rw [setAddress?, Option.bind_eq_some_iff]
  constructor
  · rintro ⟨inner, hinner, h⟩
    dsimp only at h
    split_ifs at h with hword
    obtain ⟨b₁, b₂, hb₁, hb₂, hpadded⟩ := padded_trim inner
    refine ⟨trim inner, ⟨b₁, b₂, hb₁, hb₂, isWord_iff.mp hword, ?_⟩, Option.some.inj h⟩
    rw [← hpadded]
    exact between?_eq_some_iff.mp hinner
  · rintro ⟨word, ⟨b₁, b₂, hb₁, hb₂, hword, ht⟩, rfl⟩
    refine ⟨_, between?_eq_some_iff.mpr ht, ?_⟩
    dsimp only
    rw [hword.trim_padded hb₁ hb₂, if_pos (isWord_iff.mpr hword)]
    rfl

theorem execute?_eq_some_iff : execute? t = some action ↔
    Spells t .execute ∧ Spelling.execute.action = action := by
  rw [execute?, Option.bind_eq_some_iff]
  constructor
  · rintro ⟨inner, hinner, h⟩
    split_ifs at h with hblanks
    exact ⟨⟨inner, List.all_eq_true.mp hblanks, between?_eq_some_iff.mp hinner⟩, Option.some.inj h⟩
  · rintro ⟨⟨b, hb, ht⟩, rfl⟩
    refine ⟨b, between?_eq_some_iff.mpr ht, ?_⟩
    rw [if_pos (List.all_eq_true.mpr hb)]
    rfl

/-- **What is read behind a mnemonic** is what follows it, blanks at the end apart. -/
theorem insertOperand?_trimEnd_iff {o : Option Operand} :
    insertOperand? (trimEnd rest) = some o ↔
      ∃ word, Follows rest word ∧ word.map Operand.ofText = o := by
  rw [insertOperand?, trimStart_trimEnd]
  constructor
  · intro h
    obtain ⟨b, b', hb, hb', hpadded⟩ := padded_trim rest
    split at h
    · rename_i hnil
      rw [hnil, List.append_nil] at hpadded
      refine ⟨none, ?_, Option.some.inj h⟩
      rw [hpadded]
      exact List.forall_mem_append.mpr ⟨hb, hb'⟩
    · rename_i operand hcomma
      dsimp only at h
      split_ifs at h with hword
      obtain ⟨b₂, hb₂, hoperand⟩ := exists_trimStart_append operand
      refine ⟨some (trimStart operand), ⟨b, b₂, b', hb, hb₂, hb', isWord_iff.mp hword, ?_⟩,
        Option.some.inj h⟩
      rw [← hoperand, hpadded, hcomma, List.append_assoc, List.cons_append]
    · cases h
  · rintro ⟨word, hfollows, rfl⟩
    cases word with
    | none =>
      rw [hfollows.trim_blanks]
      rfl
    | some word =>
      have hword : OperandWord word := by
        obtain ⟨-, -, -, -, -, -, hword, -⟩ := hfollows
        exact hword
      obtain ⟨operand, hcomma, rfl⟩ := hfollows.trim_operand
      rw [hcomma]
      exact if_pos (isWord_iff.mpr hword)

theorem insert?_eq_some_iff : insert? t = some action ↔
    ∃ mnemonic word, Spells t (.insert mnemonic word) ∧
      (Spelling.insert mnemonic word).action = action := by
  rw [insert?, Option.bind_eq_some_iff]
  constructor
  · rintro ⟨inner, hinner, h⟩
    obtain ⟨quoted, hopen, h⟩ := Option.bind_eq_some_iff.mp h
    dsimp only at h
    split_ifs at h with hempty
    obtain ⟨rest, hclose, h⟩ := Option.bind_eq_some_iff.mp h
    obtain ⟨o, ho, rfl⟩ := Option.map_eq_some_iff.mp h
    have hletters : Letters (quoted.takeWhile isNameStart) :=
      ⟨fun hnil => hempty (List.isEmpty_iff.mpr hnil), fun c hc =>
        isNameStart_iff.mp (List.all_eq_true.mp List.all_takeWhile c hc)⟩
    have htrim : trim inner = '"' :: (quoted.takeWhile isNameStart ++ '"' :: rest) := by
      have hdrop : '"' :: rest = quoted.dropWhile isNameStart :=
        List.isPrefixOf?_eq_some_iff_append_eq.mp hclose
      rw [hdrop, List.takeWhile_append_dropWhile]
      exact (List.isPrefixOf?_eq_some_iff_append_eq.mp hopen).symm
    -- the inner part is trimmed before it is read, so no blanks are left behind the quotation
    have hend : trimEnd rest = rest := by
      have hagain := trim_trim inner
      rw [htrim, ← List.nil_append ('"' :: _), trim_quoted (List.forall_mem_nil _)] at hagain
      exact (List.cons.inj (List.append_cancel_left (List.cons.inj hagain).2)).2
    obtain ⟨b, b', hb, hb', hpadded⟩ := padded_trim inner
    have hread : insertOperand? (trimEnd (rest ++ b')) = some o := by
      rw [trimEnd_append_blanks hb', hend]
      exact ho
    obtain ⟨word, hfollows, rfl⟩ := insertOperand?_trimEnd_iff.mp hread
    refine ⟨_, word, ⟨b, rest ++ b', hb, hletters, hfollows, ?_⟩, rfl⟩
    rw [between?_eq_some_iff.mp hinner, hpadded, htrim]
    simp
  · rintro ⟨mnemonic, word, ⟨b, rest, hb, hm, hfollows, ht⟩, rfl⟩
    have hempty : ¬ mnemonic.isEmpty = true := fun h => hm.1 (List.isEmpty_iff.mp h)
    obtain ⟨htake, hdrop⟩ := span_letters hm.2 (trimEnd rest)
    refine ⟨_, between?_eq_some_iff.mpr ht, ?_⟩
    rw [trim_quoted hb]
    refine Option.bind_eq_some_iff.mpr ⟨mnemonic ++ '"' :: trimEnd rest,
      List.isPrefixOf?_eq_some_iff_append_eq.mpr rfl, ?_⟩
    dsimp only
    rw [htake, hdrop, if_neg hempty]
    refine Option.bind_eq_some_iff.mpr ⟨trimEnd rest,
      List.isPrefixOf?_eq_some_iff_append_eq.mpr rfl, ?_⟩
    rw [insertOperand?_trimEnd_iff.mpr ⟨word, hfollows, rfl⟩]
    rfl

/-! ## The action of a text -/

theorem spells_of_ofText? (h : ofText? t = some action) :
    ∃ s : Spelling, Spells (trim t) s ∧ s.action = action := by
  simp only [ofText?, Option.orElse_eq_orElse, Option.orElse_eq_or, Option.or_eq_some_iff] at h
  rcases h with h | ⟨-, h | ⟨-, h⟩⟩
  · obtain ⟨word, hspells, haction⟩ := setAddress?_eq_some_iff.mp h
    exact ⟨_, hspells, haction⟩
  · obtain ⟨mnemonic, word, hspells, haction⟩ := insert?_eq_some_iff.mp h
    exact ⟨_, hspells, haction⟩
  · exact ⟨_, execute?_eq_some_iff.mp h⟩

theorem ofText?_of_spells {s : Spelling} (h : Spells (trim t) s) : ofText? t = some s.action := by
  -- one of the readers accepts the text; what is read then has the only form that there is
  have hsome : ofText? t ≠ none := by
    intro hnone
    simp only [ofText?, Option.orElse_eq_orElse, Option.orElse_eq_or, Option.or_eq_none_iff]
      at hnone
    obtain ⟨hset, hinsert, hexecute⟩ := hnone
    cases s with
    | setAddress word =>
      rw [setAddress?_eq_some_iff.mpr ⟨word, h, rfl⟩] at hset
      cases hset
    | insert mnemonic word =>
      rw [insert?_eq_some_iff.mpr ⟨mnemonic, word, h, rfl⟩] at hinsert
      cases hinsert
    | execute =>
      rw [execute?_eq_some_iff.mpr ⟨h, rfl⟩] at hexecute
      cases hexecute
  obtain ⟨action, haction⟩ := Option.ne_none_iff_exists'.mp hsome
  obtain ⟨s', hs', rfl⟩ := spells_of_ofText? haction
  rw [haction, hs'.unique h]

theorem ofText?_setAddress_text (w : Word) :
    ofText? ("set_address(".toList ++ w.text ++ ")".toList) = some (setAddress (.literal w)) := by
  have hname : Identifier "set_address".toList := by decide
  have hlast : ∀ c ∈ ")".toList, isBlank c = false := List.forall_mem_singleton.mpr (by decide)
  have htrim : trim ("set_address".toList ++ ("(".toList ++ w.text ++ ")".toList)) =
      "set_address".toList ++ ("(".toList ++ w.text ++ ")".toList) :=
    trim_name_append hname rfl (by decide) hlast
  have hspells : Spells (trim ("set_address(".toList ++ w.text ++ ")".toList))
      (.setAddress w.text) := by
    refine ⟨[], [], List.forall_mem_nil _, List.forall_mem_nil _, operandWord_ofInt w.toInt, ?_⟩
    rw [List.nil_append, List.append_nil]
    exact htrim
  rw [ofText?_of_spells hspells, Spelling.action, Operand.ofText_text]

/-- **The action that is read is the one that is spelt out.** A text is read exactly when, blanks
around it apart, it has one of the three forms; it has then that form only, with one mnemonic and
one word, and the action is the one that these denote. In particular, every word can be written in
decimal as an address. -/
theorem ofText?_iff_spells (t : Text) :
    (∀ action, ofText? t = some action ↔ ∃ s, Spells (trim t) s ∧ s.Denotes action) ∧
      (ofText? t = none ↔ ∀ s, ¬ Spells (trim t) s) ∧
      (∀ s s', Spells (trim t) s → Spells (trim t) s' → s = s') ∧
      ∀ w : Word, ofText? ("set_address(".toList ++ w.text ++ ")".toList) =
        some (setAddress (.literal w)) := by
  refine ⟨fun action => ?_, ?_, fun s s' h h' => h.unique h', ofText?_setAddress_text⟩
  · constructor
    · intro h
      obtain ⟨s, hs, haction⟩ := spells_of_ofText? h
      exact ⟨s, hs, hs.denotes_iff.mpr haction⟩
    · rintro ⟨s, hs, hdenotes⟩
      rw [ofText?_of_spells hs, hs.denotes_iff.mp hdenotes]
  · constructor
    · intro hnone s hs
      rw [ofText?_of_spells hs] at hnone
      cases hnone
    · intro hnot
      rw [Option.eq_none_iff_forall_not_mem]
      intro action h
      obtain ⟨s, hs, -⟩ := spells_of_ofText? h
      exact hnot s hs

/-- A numeral below the range of words is the name of a variable; here there are blanks around each
part of the form. -/
theorem ofText?_iff_spells_beyond_words :
    Spells (trim " insert( \"PUSH\" , -9223372036854775809 ) ".toList)
        (.insert "PUSH".toList (some "-9223372036854775809".toList)) ∧
      ofText? " insert( \"PUSH\" , -9223372036854775809 ) ".toList =
        some (insert "PUSH".toList (some (.named "-9223372036854775809".toList))) := by
  have hword : OperandWord "-9223372036854775809".toList := isWord_iff.mp (by decide)
  have hletters : Letters "PUSH".toList :=
    ⟨by decide, fun c hc => isNameStart_iff.mp (List.all_eq_true.mp (by decide) c hc)⟩
  have hblank : Blanks [' '] := List.forall_mem_singleton.mpr (by decide)
  have hspells : Spells (trim " insert( \"PUSH\" , -9223372036854775809 ) ".toList)
      (.insert "PUSH".toList (some "-9223372036854775809".toList)) :=
    ⟨[' '], " , -9223372036854775809 ".toList, hblank, hletters,
      ⟨[' '], [' '], [' '], hblank, hblank, hblank, hword, by decide⟩, by decide⟩
  have hbelow : ∀ i, Signed "-9223372036854775809".toList i → i < -2 ^ 63 ∨ 2 ^ 63 ≤ i := by
    rintro i ⟨digits, n, ⟨-, hall, hn⟩, ⟨rfl, -⟩ | ⟨hminus, rfl⟩⟩
    · exact absurd (hall '-' (by decide)) (by decide)
    · cases hminus
      have hvalue : n = 9223372036854775809 := hn.symm.trans (by decide)
      omega
  refine ⟨hspells, ((ofText?_iff_spells _).1 _).mpr ⟨_, hspells, ?_⟩⟩
  exact Spelling.Denotes.insertOperand _ (Operand.Denotes.named hbelow)

example : ofText? "set_address(-9223372036854775808)".toList =
    some (setAddress (.literal Int64.minValue)) := by decide

end Action

end CellMachine
