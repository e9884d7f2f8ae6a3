import CellMachine.Proofs.Text.Trim
import CellMachine.Script.Line
import CellMachine.Script.Replay

/-! # The shapes of lines

Three shapes of lines carry a name: `name = digits` assigns to a variable, `def name` opens a
definition, and `name = Computer.new(digits)` constructs a computer. Each shape is said here as a
sequence of parts with blanks between them, and the reader of that shape accepts the lines of the
shape and no others.

* `Blanks`, `Numeral`, `Padded`: runs of blanks, numerals, and texts with blanks around them.
* `Line.Assigns`, `Line.Opens`, `Line.Constructs`: the three shapes.
* `binding?_eq_some_iff`, `between?_eq_some_iff`, `toNat?_eq_some_iff`: what the parts are read as.
* `assignment?_trim_iff`, `opening?_trim_iff`, `construction?_iff`: what the readers accept. -/

namespace CellMachine

namespace Text

variable {t line name right blanks : Text} {n : Nat}

/-! ## Parts -/

/-- **Runs of blanks.** -/
def Blanks (t : Text) : Prop := ∀ c ∈ t, isBlank c

/-- **Numerals.** One or more digits, and the number that they denote. -/
def Numeral (t : Text) (n : Nat) : Prop :=
  t ≠ [] ∧ (∀ c ∈ t, Digit c) ∧ Nat.ofDigitChars 10 t 0 = n

/-- **The text `line` is `t` with blanks around it.** -/
def Padded (t line : Text) : Prop :=
  ∃ before behind, Blanks before ∧ Blanks behind ∧ line = before ++ t ++ behind

theorem toNat?_eq_some_iff : toNat? t = some n ↔ Numeral t n := by
  have hall : t.all Char.isDigit = true ↔ ∀ c ∈ t, Digit c := by
    simp only [List.all_eq_true, isDigit_iff]
  rw [toNat?, Numeral, ← hall]
  split_ifs with h
  · simp [h]
  · exact iff_of_false (by simp) fun hnumeral => h ⟨hnumeral.1, hnumeral.2.1⟩

theorem between?_eq_some_iff {b e inner : Text} :
    between? b e t = some inner ↔ t = b ++ inner ++ e := by
  rw [between?, Option.bind_eq_bind, Option.bind_eq_some_iff]
  simp only [List.isPrefixOf?_eq_some_iff_append_eq, List.isSuffixOf?_eq_some_iff_append_eq]
  constructor
  · rintro ⟨rest, rfl, rfl⟩
    rw [List.append_assoc]
  · rintro rfl
    exact ⟨inner ++ e, by rw [List.append_assoc], rfl⟩

theorem exists_trimStart_append (t : Text) : ∃ blanks, Blanks blanks ∧ t = blanks ++ trimStart t :=
  ⟨t.takeWhile isBlank, fun _ hc => List.all_eq_true.mp List.all_takeWhile _ hc,
    (List.takeWhile_append_dropWhile).symm⟩

theorem padded_trim (line : Text) : Padded (trim line) line := by
  obtain ⟨before, hbefore, hstart⟩ := exists_trimStart_append line
  obtain ⟨behind, hend, hbehind⟩ := exists_trimEnd_append (trimStart line)
  refine ⟨before, behind, hbefore, hbehind, ?_⟩
  rw [List.append_assoc, trim, ← hend]
  exact hstart

theorem padded_iff (ht : trim t = t) : Padded t line ↔ trim line = t := by
  constructor
  · rintro ⟨before, behind, hbefore, hbehind, rfl⟩
    rw [trim_append_blanks hbehind, trim, trimStart_blanks_append hbefore]
    exact ht
  · rintro rfl
    exact padded_trim line

theorem Numeral.not_blank (h : Numeral t n) : ∀ c ∈ t, isBlank c = false :=
  fun c hc => isBlank_of_letter_or_digit (Or.inr (h.2.1 c hc))

theorem trim_of_no_blank (h : ∀ c ∈ t, isBlank c = false) : trim t = t :=
  trim_eq_self (fun c hc => h c (List.mem_of_head? hc)) fun c hc => h c (List.mem_of_getLast? hc)

/-! ## Bindings -/

theorem span_name_append {rest : Text} (hname : Identifier name)
    (hrest : ∀ c, rest.head? = some c → isNameChar c = false) :
    (name ++ rest).takeWhile isNameChar = name ∧ (name ++ rest).dropWhile isNameChar = rest := by
  have hall : ∀ c ∈ name, isNameChar c := fun c hc => isNameChar_iff.mpr (hname.letter_or_digit hc)
  rw [List.takeWhile_append_of_pos hall, List.dropWhile_append_of_pos hall]
  cases rest with
  | nil => simp
  | cons c rest => simp [hrest c rfl]

theorem binding?_name_append {rest : Text} (hname : Identifier name)
    (hrest : ∀ c, rest.head? = some c → isNameChar c = false) :
    binding? (name ++ rest) =
      (['='].isPrefixOf? (trimStart rest)).map fun right => (name, trimStart right) := by
  obtain ⟨htake, hdrop⟩ := span_name_append hname hrest
  rw [binding?, htake, hdrop, if_pos (isName_iff.mpr hname)]

theorem isNameChar_of_isBlank {c : Char} (h : isBlank c) : isNameChar c = false := by
  by_contra hname
  have hletter := isNameChar_iff.mp (by simpa using hname)
  rw [isBlank_of_letter_or_digit hletter] at h
  cases h

theorem isNameChar_head_blanks_append {c : Char} {rest : Text} (hblanks : Blanks blanks)
    (hrest : ∀ c, rest.head? = some c → isNameChar c = false)
    (hc : (blanks ++ rest).head? = some c) : isNameChar c = false := by
  cases blanks with
  | nil => exact hrest c hc
  | cons d blanks =>
    cases hc
    exact isNameChar_of_isBlank (hblanks c (List.mem_cons_self ..))

/-- **Bindings** are a name, an equals sign and a right side, with blanks between them. -/
theorem binding?_eq_some_iff : binding? t = some (name, right) ↔
    Identifier name ∧ trimStart right = right ∧ ∃ b₁ b₂, Blanks b₁ ∧ Blanks b₂ ∧
      t = name ++ (b₁ ++ '=' :: (b₂ ++ right)) := by
  constructor
  · intro h
    have hname := identifier_of_binding? h
    rw [binding?] at h
    split_ifs at h
    obtain ⟨rest, hequals, hparts⟩ := Option.map_eq_some_iff.mp h
    obtain ⟨htake, rfl⟩ := Prod.mk.inj hparts
    obtain ⟨b₁, hb₁, hdrop⟩ := exists_trimStart_append (t.dropWhile isNameChar)
    obtain ⟨b₂, hb₂, hrest⟩ := exists_trimStart_append rest
    have hsign := List.isPrefixOf?_eq_some_iff_append_eq.mp hequals
    refine ⟨hname, trimStart_trimStart rest, b₁, b₂, hb₁, hb₂, ?_⟩
    rw [← hrest, ← List.singleton_append, hsign, ← hdrop, ← htake,
      List.takeWhile_append_dropWhile]
  · rintro ⟨hname, hright, b₁, b₂, hb₁, hb₂, rfl⟩
    have hsign : trimStart ('=' :: (b₂ ++ right)) = '=' :: (b₂ ++ right) :=
      trimStart_of_head fun c hc => by cases hc; decide
    have hhead : ∀ c, (b₁ ++ '=' :: (b₂ ++ right)).head? = some c → isNameChar c = false := by
      refine fun c => isNameChar_head_blanks_append hb₁ fun d hd => ?_
      cases hd
      decide
    rw [binding?_name_append hname hhead, trimStart_blanks_append hb₁, hsign]
    simp [List.isPrefixOf?, trimStart_blanks_append hb₂, hright]

theorem trim_name_append {rest middle last : Text} (hname : Identifier name)
    (hrest : rest = middle ++ last) (hne : last ≠ []) (hlast : ∀ c ∈ last, isBlank c = false) :
    trim (name ++ rest) = name ++ rest := by
  obtain ⟨d, u, rfl, hd⟩ := hname.head_letter
  refine trim_eq_self (fun c hc => ?_) fun c hc => ?_
  · cases hc
    exact isBlank_of_letter_or_digit (Or.inl hd)
  · rw [hrest, ← List.append_assoc, List.getLast?_append_of_ne_nil _ hne] at hc
    exact hlast c (List.mem_of_getLast? hc)

end Text

open Text

namespace Line

variable {t line name : Text} {value : Nat}

/-! ## Assignments -/

/-- **Lines that assign:** `name = digits`. -/
def Assigns (line name : Text) (value : Nat) : Prop :=
  Identifier name ∧ ∃ b₁ b₂ digits, Blanks b₁ ∧ Blanks b₂ ∧ Numeral digits value ∧
    Padded (name ++ (b₁ ++ '=' :: (b₂ ++ digits))) line

theorem assignment?_eq_some_iff : assignment? t = some (name, value) ↔
    Identifier name ∧ ∃ b₁ b₂ digits, Blanks b₁ ∧ Blanks b₂ ∧ Numeral digits value ∧
      t = name ++ (b₁ ++ '=' :: (b₂ ++ digits)) := by
  have hread : assignment? t = some (name, value) ↔
      ∃ digits, binding? t = some (name, digits) ∧ Numeral digits value := by
    simp [assignment?, Option.bind_eq_some_iff, ← toNat?_eq_some_iff]
  rw [hread]
  constructor
  · rintro ⟨digits, hbinding, hdigits⟩
    obtain ⟨hname, -, b₁, b₂, hb₁, hb₂, ht⟩ := binding?_eq_some_iff.mp hbinding
    exact ⟨hname, b₁, b₂, digits, hb₁, hb₂, hdigits, ht⟩
  · rintro ⟨hname, b₁, b₂, digits, hb₁, hb₂, hdigits, ht⟩
    have hhead : trimStart digits = digits :=
      trimStart_of_head fun c hc => hdigits.not_blank c (List.mem_of_head? hc)
    exact ⟨digits, binding?_eq_some_iff.mpr ⟨hname, hhead, b₁, b₂, hb₁, hb₂, ht⟩, hdigits⟩

theorem assignment?_trim_iff : assignment? (trim line) = some (name, value) ↔
    Assigns line name value := by
  rw [assignment?_eq_some_iff, Assigns]
  refine and_congr_right fun hname => exists₃_congr fun b₁ b₂ digits => ?_
  refine and_congr_right fun _ => and_congr_right fun _ => and_congr_right fun hdigits => ?_
  have htrim : trim (name ++ (b₁ ++ '=' :: (b₂ ++ digits))) =
      name ++ (b₁ ++ '=' :: (b₂ ++ digits)) := by
    have hrest : b₁ ++ '=' :: (b₂ ++ digits) = (b₁ ++ '=' :: b₂) ++ digits := by simp
    exact trim_name_append hname hrest hdigits.1 hdigits.not_blank
  exact (padded_iff htrim).symm

/-! ## Definitions -/

/-- **Lines that open a definition:** `def name`. -/
def Opens (line name : Text) : Prop :=
  Identifier name ∧ ∃ blanks, Blanks blanks ∧ blanks ≠ [] ∧
    Padded ("def".toList ++ (blanks ++ name)) line

theorem opening?_eq_some_iff : opening? t = some name ↔
    Identifier name ∧ ∃ blanks, Blanks blanks ∧ blanks ≠ [] ∧
      t = "def".toList ++ (blanks ++ name) := by
  constructor
  · intro h
    obtain ⟨rest, hdef, h⟩ := Option.bind_eq_some_iff.mp h
    dsimp only at h
    split_ifs at h with hshape
    obtain rfl := Option.some.inj h
    obtain ⟨hhead, hname⟩ := Bool.and_eq_true_iff.mp hshape
    obtain ⟨blanks, hblanks, hrest⟩ := exists_trimStart_append rest
    refine ⟨isName_iff.mp hname, blanks, hblanks, ?_, ?_⟩
    · rintro rfl
      -- the rest would have to start with a blank and with a letter
      obtain ⟨c, u, hc, hletter⟩ := (isName_iff.mp hname).head_letter
      rw [List.nil_append] at hrest
      rw [hrest, hc] at hhead
      rw [List.head?_cons, Option.any_some, isBlank_of_letter_or_digit (Or.inl hletter)] at hhead
      cases hhead
    · rw [← hrest]
      exact (List.isPrefixOf?_eq_some_iff_append_eq.mp hdef).symm
  · rintro ⟨hname, blanks, hblanks, hne, rfl⟩
    obtain ⟨c, u, rfl, hletter⟩ := hname.head_letter
    obtain ⟨d, v, rfl⟩ := List.exists_cons_of_ne_nil hne
    have hdef : "def".toList.isPrefixOf? ("def".toList ++ (d :: v ++ c :: u)) =
        some (d :: v ++ c :: u) := List.isPrefixOf?_eq_some_iff_append_eq.mpr rfl
    have hstart : trimStart (d :: v ++ c :: u) = c :: u := by
      rw [trimStart_blanks_append hblanks]
      refine trimStart_of_head fun e he => ?_
      cases he
      exact isBlank_of_letter_or_digit (Or.inl hletter)
    have hshape : (((d :: v ++ c :: u).head?.any isBlank) && isName (c :: u)) = true := by
      rw [isName_iff.mpr hname, Bool.and_true]
      exact hblanks d (List.mem_cons_self ..)
    rw [opening?, hdef, Option.bind_some]
    dsimp only
    rw [hstart, if_pos hshape]

theorem opening?_trim_iff : opening? (trim line) = some name ↔ Opens line name := by
  rw [opening?_eq_some_iff, Opens]
  refine and_congr_right fun hname => exists_congr fun blanks => ?_
  refine and_congr_right fun _ => and_congr_right fun _ => ?_
  obtain ⟨c, u, hc, -⟩ := hname.head_letter
  have hkeyword : Identifier "def".toList := by decide
  have hne : name ≠ [] := by
    rw [hc]
    exact List.cons_ne_nil c u
  have hlast : ∀ c ∈ name, isBlank c = false :=
    fun c hc => isBlank_of_letter_or_digit (hname.letter_or_digit hc)
  exact (padded_iff (trim_name_append hkeyword rfl hne hlast)).symm

end Line

/-! ## Constructions -/

/-- **Lines that construct a computer:** `name = Computer.new(digits)`. -/
def Line.Constructs (line name : Text) (size : Nat) : Prop :=
  Identifier name ∧ ∃ b₁ b₂ b₃ b₄ digits, Blanks b₁ ∧ Blanks b₂ ∧ Blanks b₃ ∧ Blanks b₄ ∧
    Numeral digits size ∧ Padded (name ++ (b₁ ++ '=' :: (b₂ ++
      ("Computer.new(".toList ++ (b₃ ++ digits ++ b₄) ++ ")".toList)))) line

theorem construction?_iff {line name : Text} {size : Nat} :
    construction? line = some (name, size) ↔ Line.Constructs line name size := by
  have hread : construction? line = some (name, size) ↔ ∃ inner,
      binding? (trim line) = some (name, "Computer.new(".toList ++ inner ++ ")".toList) ∧
        Numeral (trim inner) size := by
    rw [construction?, Option.bind_eq_some_iff]
    constructor
    · rintro ⟨⟨name', right⟩, hbinding, hright⟩
      obtain ⟨inner, hinner, hright⟩ := Option.bind_eq_some_iff.mp hright
      obtain ⟨n, hn, hpair⟩ := Option.map_eq_some_iff.mp hright
      cases hpair
      rw [between?_eq_some_iff.mp hinner] at hbinding
      exact ⟨inner, hbinding, toNat?_eq_some_iff.mp hn⟩
    · rintro ⟨inner, hbinding, hdigits⟩
      refine ⟨_, hbinding, Option.bind_eq_some_iff.mpr ⟨inner, between?_eq_some_iff.mpr rfl, ?_⟩⟩
      rw [toNat?_eq_some_iff.mpr hdigits]
      rfl
  rw [hread]
  constructor
  · rintro ⟨inner, hbinding, hdigits⟩
    obtain ⟨hname, -, b₁, b₂, hb₁, hb₂, hline⟩ := binding?_eq_some_iff.mp hbinding
    obtain ⟨b₃, b₄, hb₃, hb₄, hinner⟩ := padded_trim inner
    refine ⟨hname, b₁, b₂, b₃, b₄, trim inner, hb₁, hb₂, hb₃, hb₄, hdigits, ?_⟩
    rw [← hinner, ← hline]
    exact padded_trim line
  · rintro ⟨hname, b₁, b₂, b₃, b₄, digits, hb₁, hb₂, hb₃, hb₄, hdigits, hline⟩
    have hinner : trim (b₃ ++ digits ++ b₄) = digits :=
      (padded_iff (trim_of_no_blank hdigits.not_blank)).mp ⟨b₃, b₄, hb₃, hb₄, rfl⟩
    have hright : trimStart ("Computer.new(".toList ++ (b₃ ++ digits ++ b₄) ++ ")".toList) =
        "Computer.new(".toList ++ (b₃ ++ digits ++ b₄) ++ ")".toList :=
      trimStart_of_head fun c hc => by cases hc; decide
    have hrest : b₁ ++ '=' :: (b₂ ++ ("Computer.new(".toList ++ (b₃ ++ digits ++ b₄) ++
        ")".toList)) = (b₁ ++ '=' :: (b₂ ++ ("Computer.new(".toList ++ (b₃ ++ digits ++ b₄)))) ++
        ")".toList := by simp
    have hlast : ∀ c ∈ ")".toList, isBlank c = false := by
      intro c hc
      rw [List.mem_singleton.mp hc]
      rfl
    have htrim := trim_name_append hname hrest (by decide) hlast
    refine ⟨b₃ ++ digits ++ b₄, ?_, by rw [hinner]; exact hdigits⟩
    rw [(padded_iff htrim).mp hline]
    exact binding?_eq_some_iff.mpr ⟨hname, hright, b₁, b₂, hb₁, hb₂, rfl⟩

end CellMachine
