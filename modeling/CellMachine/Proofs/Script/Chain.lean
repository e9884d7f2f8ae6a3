import CellMachine.Proofs.Script.Line
import CellMachine.Proofs.Text.Lines

/-! # Whom a line addresses

A line of a routine that is a name, a dot and a rest is addressed to the computer of that name, and
the rest between its dots are the links. An identifier holds no dot, so it ends where the first dot
is: a line is addressed to one identifier at most, also among identifiers that start alike. And a
line that constructs a computer is addressed to none, although it holds a dot.

* `chain`: the line of given links.
* `links?_eq_some_iff`: the lines that have given links for a name.
* `name_eq_of_links?`, `construction?_of_links?`: a line with links has them for one identifier, and
  constructs nothing.
* `line_addresses_one_name`: all of this for any line, and that it acts on one computer at most. -/

namespace CellMachine

open Text (Identifier)

/-- **The chain of given links:** a name, and a dot before each link. -/
def chain (name : Text) (links : List Text) : Text := name ++ '.' :: ['.'].intercalate links

variable {name name' link line rest rest' : Text} {links links' : List Text}

/-! ## The links of a chain -/

/-- **The lines that have given links for a name:** but for blanks before it, the chain of these. -/
theorem links?_eq_some_iff : links? name line = some links ↔
    links ≠ [] ∧ (∀ link ∈ links, '.' ∉ link) ∧ Text.trimStart line = chain name links := by
  rw [links?, Option.map_eq_some_iff]
  constructor
  · rintro ⟨rest, hrest, rfl⟩
    have hline := List.isPrefixOf?_eq_some_iff_append_eq.mp hrest
    refine ⟨List.splitOn_ne_nil '.' rest, fun link => Text.notMem_of_mem_splitOn, ?_⟩
    rw [chain, List.intercalate_splitOn, ← hline, List.append_assoc, List.singleton_append]
  · rintro ⟨hne, hdots, hline⟩
    refine ⟨['.'].intercalate links, ?_, List.splitOn_intercalate '.' hdots hne⟩
    refine List.isPrefixOf?_eq_some_iff_append_eq.mpr ?_
    rw [hline, chain, List.append_assoc, List.singleton_append]

theorem trimStart_name_append (hname : Identifier name) (rest : Text) :
    Text.trimStart (name ++ rest) = name ++ rest := by
  obtain ⟨c, u, rfl, hc⟩ := hname.head_letter
  refine Text.trimStart_of_head fun d hd => ?_
  cases hd
  exact Text.isBlank_of_letter_or_digit (Or.inl hc)

theorem links?_chain (hname : Identifier name) (hne : links ≠ [])
    (hdots : ∀ link ∈ links, '.' ∉ link) : links? name (chain name links) = some links :=
  links?_eq_some_iff.mpr ⟨hne, hdots, trimStart_name_append hname _⟩

/-! ## One name at most -/

theorem name_dot_inj (hname : Identifier name) (hname' : Identifier name')
    (h : name ++ '.' :: rest = name' ++ '.' :: rest') : name = name' ∧ rest = rest' := by
  have hdot : ∀ {t : Text} c, ('.' :: t).head? = some c → Text.isNameChar c = false := by
    intro t c hc
    cases hc
    decide
  obtain ⟨htake, hdrop⟩ := Text.span_name_append hname (hdot (t := rest))
  obtain ⟨htake', hdrop'⟩ := Text.span_name_append hname' (hdot (t := rest'))
  rw [h] at htake hdrop
  exact ⟨htake.symm.trans htake', (List.cons.inj (hdrop.symm.trans hdrop')).2⟩

theorem name_eq_of_links? (hname : Identifier name) (hname' : Identifier name')
    (h : links? name line = some links) (h' : links? name' line = some links') : name = name' := by
  obtain ⟨-, -, hline⟩ := links?_eq_some_iff.mp h
  obtain ⟨-, -, hline'⟩ := links?_eq_some_iff.mp h'
  exact (name_dot_inj hname hname' (hline.symm.trans hline')).1

theorem links?_chain_of_ne (hname : Identifier name) (hname' : Identifier name')
    (hne : name' ≠ name) (links : List Text) : links? name' (chain name links) = none := by
  by_contra hsome
  obtain ⟨links', h⟩ := Option.ne_none_iff_exists'.mp hsome
  obtain ⟨-, -, hline⟩ := links?_eq_some_iff.mp h
  rw [chain, chain, trimStart_name_append hname] at hline
  exact hne (name_dot_inj hname hname' hline).1.symm

/-! ## Constructions -/

/-- **A chain constructs nothing:** what follows its name is a dot and no equals sign. -/
theorem construction?_chain (hname : Identifier name) (links : List Text) :
    construction? (chain name links) = none := by
  obtain ⟨blanks, hline, hblanks⟩ := Text.exists_trimEnd_append (chain name links)
  have htrim : Text.trim (chain name links) = Text.trimEnd (chain name links) := by
    rw [Text.trim, chain, trimStart_name_append hname]
  -- trimming leaves the name and the dot, for neither of them is a blank
  obtain ⟨rest, hrest⟩ : ∃ rest, Text.trim (chain name links) = name ++ '.' :: rest := by
    have hstart : chain name links = (name ++ ['.']) ++ ['.'].intercalate links := by
      rw [chain, List.append_assoc, List.singleton_append]
    have hprefix := Text.isPrefixOf?_append_blanks hblanks name (Text.trimEnd (chain name links))
    rw [← hline, List.isPrefixOf?_eq_some_iff_append_eq.mpr hstart.symm] at hprefix
    obtain ⟨rest, hrest, -⟩ := Option.map_eq_some_iff.mp hprefix.symm
    refine ⟨rest, ?_⟩
    rw [htrim, ← List.isPrefixOf?_eq_some_iff_append_eq.mp hrest, List.append_assoc,
      List.singleton_append]
  have hdot : ∀ c, ('.' :: rest).head? = some c → Text.isNameChar c = false := by
    intro c hc
    cases hc
    decide
  have hbinding : Text.binding? (name ++ '.' :: rest) = none := by
    rw [Text.binding?_name_append hname hdot,
      Text.trimStart_of_head fun c hc => by cases hc; decide, Text.isPrefixOf?_of_head (by simp)]
    rfl
  rw [construction?, hrest, hbinding]
  rfl

theorem construction?_of_links? (hname : Identifier name) (h : links? name line = some links) :
    construction? line = none := by
  obtain ⟨-, -, hline⟩ := links?_eq_some_iff.mp h
  have htrim : Text.trim line = Text.trim (chain name links) := by
    rw [← hline, Text.trim, Text.trim, Text.trimStart_trimStart]
  have hchain := construction?_chain hname links
  rw [construction?, ← htrim] at hchain
  exact hchain

/-! ## One computer at most -/

theorem replayLine_of_links?_eq_none {b : Bench} (limit : Nat) (vs : Variables)
    (hline : construction? line = none) (h : links? b.name line = none) :
    replayLine limit vs (some b) line = .silent (some b) := by
  rw [replayLine, hline]
  simp only [chainReply, h]

/-- **A line addresses one name.** A line that constructs a computer has no links for any
identifier, and no line has links for two of them. A line has links for a name exactly when it is,
but for blanks before it, the name, a dot and a rest; there is then at least one link, none of them
holds a dot, and joined by dots they are the rest. So of two computers of different names a line
that constructs none leaves one alone. -/
theorem line_addresses_one_name (line : Text) :
    (∀ built size, Line.Constructs line built size →
      ∀ name, Identifier name → links? name line = none) ∧
    (∀ name name', Identifier name → Identifier name' → name ≠ name' →
      links? name line = none ∨ links? name' line = none) ∧
    (∀ name, (links? name line).isSome ↔ ∃ rest, Text.trimStart line = name ++ '.' :: rest) ∧
    (∀ name links rest, links? name line = some links →
      Text.trimStart line = name ++ '.' :: rest →
        (∀ link ∈ links, '.' ∉ link) ∧ links ≠ [] ∧ ['.'].intercalate links = rest) ∧
    ∀ limit vs (b b' : Bench), Identifier b.name → Identifier b'.name → b.name ≠ b'.name →
      construction? line = none →
        replayLine limit vs (some b) line = .silent (some b) ∨
          replayLine limit vs (some b') line = .silent (some b') := by
  have hone : ∀ name name', Identifier name → Identifier name' → name ≠ name' →
      links? name line = none ∨ links? name' line = none := by
    intro name name' hname hname' hne
    cases h : links? name line with
    | none => exact Or.inl rfl
    | some links =>
      cases h' : links? name' line with
      | none => exact Or.inr rfl
      | some links' => exact absurd (name_eq_of_links? hname hname' h h') hne
  refine ⟨fun built size hbuilt name hname => ?_, hone, fun name => ⟨fun h => ?_, ?_⟩,
    fun name links rest h hline => ?_, fun limit vs b b' hb hb' hne hline => ?_⟩
  · by_contra hsome
    obtain ⟨links, h⟩ := Option.ne_none_iff_exists'.mp hsome
    have hnone := construction?_of_links? hname h
    rw [construction?_iff.mpr hbuilt] at hnone
    cases hnone
  · obtain ⟨links, hlinks⟩ := Option.isSome_iff_exists.mp h
    exact ⟨['.'].intercalate links, (links?_eq_some_iff.mp hlinks).2.2⟩
  · rintro ⟨rest, hline⟩
    refine Option.isSome_iff_exists.mpr ⟨rest.splitOn '.', links?_eq_some_iff.mpr ?_⟩
    refine ⟨List.splitOn_ne_nil '.' rest, fun link => Text.notMem_of_mem_splitOn, ?_⟩
    rw [chain, List.intercalate_splitOn, hline]
  · obtain ⟨hne, hdots, hchain⟩ := links?_eq_some_iff.mp h
    rw [hline, chain] at hchain
    exact ⟨hdots, hne, (List.cons.inj (List.append_cancel_left hchain)).2.symm⟩
  · rcases hone b.name b'.name hb hb' hne with h | h
    · exact Or.inl (replayLine_of_links?_eq_none limit vs hline h)
    · exact Or.inr (replayLine_of_links?_eq_none limit vs hline h)

/-- A bench of one cell under a given name. -/
def cellBench (name : Text) : Bench := ⟨name, ⟨Store.vacant 1, 0⟩⟩

/-- A line for `cc` has empty links too and leaves `c` alone; a construction is for neither of the
names in it. -/
theorem line_addresses_one_name_alike :
    links? "cc".toList "\u2003cc.insert(\"RET\")..".toList =
      some ["insert(\"RET\")".toList, [], []] ∧
    ['.'].intercalate ["insert(\"RET\")".toList, [], []] = "insert(\"RET\")..".toList ∧
    links? "c".toList "\u2003cc.insert(\"RET\")..".toList = none ∧
    replayLine 0 [] (some (cellBench "c".toList)) "\u2003cc.insert(\"RET\")..".toList =
      .silent (some (cellBench "c".toList)) ∧
    links? "c".toList "c = Computer.new(1)".toList = none ∧
    links? "Computer".toList "c = Computer.new(1)".toList = none := by
  have hlinks : links? "cc".toList "\u2003cc.insert(\"RET\")..".toList =
      some ["insert(\"RET\")".toList, [], []] := by decide
  have hconstructs : Line.Constructs "c = Computer.new(1)".toList "c".toList 1 :=
    construction?_iff.mp rfl
  obtain ⟨-, hone, -, hjoined, halone⟩ :=
    line_addresses_one_name "\u2003cc.insert(\"RET\")..".toList
  obtain ⟨hbuilt, -⟩ := line_addresses_one_name "c = Computer.new(1)".toList
  refine ⟨hlinks, (hjoined _ _ _ hlinks rfl).2.2, ?_, ?_, hbuilt _ _ hconstructs _ (by decide),
    hbuilt _ _ hconstructs _ (by decide)⟩
  · rcases hone "c".toList "cc".toList (by decide) (by decide) (by decide) with h | h
    · exact h
    · cases hlinks.symm.trans h
  · rcases halone 0 [] (cellBench "c".toList) (cellBench "cc".toList)
      (by decide) (by decide) (by decide) (by decide) with h | h
    · exact h
    · exact absurd h (by decide)

end CellMachine
