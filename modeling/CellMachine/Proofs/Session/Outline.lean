import CellMachine.Proofs.Session.Records

/-! # The outline of lines

How lines are laid out does not matter: blank lines and comments do nothing, and neither do the
blanks around a line. What a session makes of lines is decided by their *outline*, the meaningful
ones trimmed; only the lines that it captures are kept as they were read.

This is plain for the meaning of a line, which is that of its trimmed text. The captured lines are
stored untrimmed and read much later, in parts: a construction is trimmed as a whole, whereas a chain
is cut at its dots first, and the blanks at its end go with the last link.

* `links?_trim`, `replayLine_trim`: a line of a routine is replayed as its trimmed text is.
* `Routine.trimmed`, `Session.trimmed`: routines and sessions with all captured lines trimmed.
* `readLine_trimmed`: a line does to a session what the trimmed line does to the trimmed session.
* `readLines_outline`: lines do what their outline does.
* `readLines_of_same_outline`: fresh sessions that read lines with the same outline. -/

namespace CellMachine

open Reply

/-! ## Lines of a routine -/

section Lines

variable (limit : Nat) (vs : Variables) (bench : Option Bench) (line : Text)

theorem links?_trim (name line : Text) :
    (links? name (Text.trim line)).map (List.map Text.trim) =
      (links? name line).map (List.map Text.trim) := by
  obtain ⟨blanks, hline, hblanks⟩ := Text.exists_trimEnd_append (Text.trimStart line)
  have hstart : Text.trimStart line = Text.trim line ++ blanks := hline
  rw [links?, links?, Text.trimStart_trim, hstart, Text.isPrefixOf?_append_blanks hblanks]
  cases (name ++ ['.']).isPrefixOf? (Text.trim line) with
  | none => rfl
  | some rest => exact congrArg some (Text.map_trim_splitOn_append hblanks rest).symm

theorem linkReply_trim (c : Computer) (link : Text) :
    linkReply limit vs c (Text.trim link) = linkReply limit vs c link := by
  rw [linkReply, linkReply, Action.ofText?, Action.ofText?, Text.trim_trim]

theorem feed_map_trim (c : Computer) (links : List Text) :
    feed (linkReply limit vs) c (links.map Text.trim) = feed (linkReply limit vs) c links := by
  induction links generalizing c with
  | nil => rfl
  | cons link links ih => simp only [List.map_cons, feed_cons, linkReply_trim, ih]

theorem chainReply_trim :
    chainReply limit vs bench (Text.trim line) = chainReply limit vs bench line := by
  cases bench with
  | none => rfl
  | some b =>
    have hlinks := links?_trim b.name line
    rw [chainReply, chainReply]
    cases htrim : links? b.name (Text.trim line) with
    | none =>
      rw [htrim, Option.map_none] at hlinks
      rw [Option.map_eq_none_iff.mp hlinks.symm]
    | some links =>
      rw [htrim, Option.map_some] at hlinks
      obtain ⟨links', hline, hsame⟩ := Option.map_eq_some_iff.mp hlinks.symm
      have hfeed : feed (linkReply limit vs) b.computer links =
          feed (linkReply limit vs) b.computer links' := by
        rw [← feed_map_trim, ← hsame, feed_map_trim]
      simp only [hline, hfeed]

theorem replayLine_trim :
    replayLine limit vs bench (Text.trim line) = replayLine limit vs bench line := by
  have hconstruction : construction? (Text.trim line) = construction? line := by
    rw [construction?, construction?, Text.trim_trim]
  rw [replayLine, replayLine, hconstruction, chainReply_trim]

theorem replay_map_trim (lines : List Text) :
    replay limit vs bench (lines.map Text.trim) = replay limit vs bench lines := by
  induction lines generalizing bench with
  | nil => rfl
  | cons line lines ih =>
    simp only [replay, List.map_cons, feed_cons, replayLine_trim] at ih ⊢
    simp only [ih]

end Lines

/-! ## Trimmed sessions -/

/-- **The routine with all its lines trimmed.** -/
def Routine.trimmed (r : Routine) : Routine := { r with body := r.body.map Text.trim }

/-- **The session with all captured lines trimmed.** -/
def Session.trimmed (s : Session) : Session := { s with routine := s.routine.map Routine.trimmed }

theorem Line.classify_trimmed (routine : Option Routine) (line : Text) :
    classify (routine.map Routine.trimmed) line = classify routine line := by
  cases routine <;> rfl

/-- **The outline of lines:** the meaningful ones, trimmed. -/
def Line.outline (lines : List Text) : List Text := (lines.filter isMeaningful).map Text.trim

namespace Session

/-- **A line does to a session what the trimmed line does to the trimmed session.** -/
theorem readLine_trimmed (limit : Nat) (s : Session) (line : Text) :
    (s.readLine limit line).onState trimmed = s.trimmed.readLine limit (Text.trim line) := by
  have hclass : Line.classify s.trimmed.routine (Text.trim line) = Line.classify s.routine line := by
    rw [Line.classify_congr (Text.trim_trim line)]
    exact Line.classify_trimmed s.routine line
  rw [readLine, readLine, hclass]
  rcases s with ⟨vars, routine, bench⟩
  cases Line.classify routine line with
  | exit | ignored | unrecognized | assignment | opening => rfl
  | closing => cases routine <;> rfl
  | body =>
    cases routine with
    | none => rfl
    | some r =>
      have hcapture : (r.capture line).trimmed = r.trimmed.capture (Text.trim line) := by
        simp [Routine.trimmed, Routine.capture]
      simp only [act, trimmed, Option.map_some, ← hcapture]
      rfl
  | call =>
    cases routine with
    | none => rfl
    | some r =>
      have hreplay : replay limit vars bench r.trimmed.body = replay limit vars bench r.body :=
        replay_map_trim limit vars bench r.body
      simp only [act, call, trimmed, Option.map_some, hreplay]
      rcases replay limit vars bench r.body with abort | ⟨bench', out⟩ <;> rfl

theorem readLines_outline (limit : Nat) (s : Session) (lines : List Text) :
    (s.readLines limit lines).onState trimmed =
      s.trimmed.readLines limit (Line.outline lines) := by
  have hfilter : s.readLines limit (lines.filter Line.isMeaningful) = s.readLines limit lines :=
    feed_filter (readLine_of_not_meaningful limit) s lines
  rw [← hfilter]
  exact onState_feed (fun s line _ => readLine_trimmed limit s line) s

/-- **How lines are laid out does not matter.** Of two fresh sessions that read lines with the same
outline, either both abort, for the same cause, or both answer; then they have emitted the same
records, and have the same variables, the same bench, and the same routine but for blanks around the
lines of its body. -/
theorem readLines_of_same_outline {lines lines' : List Text}
    (h : Line.outline lines = Line.outline lines') (limit : Nat) :
    (∀ cause, fresh.readLines limit lines = .error cause ↔
      fresh.readLines limit lines' = .error cause) ∧
    ∀ s out, fresh.readLines limit lines = .ok (s, out) →
      ∃ s', fresh.readLines limit lines' = .ok (s', out) ∧ s'.vars = s.vars ∧ s'.bench = s.bench ∧
        s'.routine.map Routine.trimmed = s.routine.map Routine.trimmed := by
  have hsame : (fresh.readLines limit lines).onState trimmed =
      (fresh.readLines limit lines').onState trimmed := by
    rw [readLines_outline, readLines_outline, h]
  rcases hlines : fresh.readLines limit lines with cause | ⟨s, out⟩ <;>
    rcases hlines' : fresh.readLines limit lines' with cause' | ⟨s', out'⟩ <;>
    rw [hlines, hlines'] at hsame
  · obtain rfl := Except.error.inj hsame
    exact ⟨fun _ => Iff.rfl, nofun⟩
  · cases hsame
  · cases hsame
  · obtain ⟨htrimmed, rfl⟩ := Prod.mk.inj (Except.ok.inj hsame)
    obtain ⟨hvars, hroutine, hbench⟩ := Session.mk.inj htrimmed
    refine ⟨fun _ => ⟨nofun, nofun⟩, fun s₁ out₁ hok => ?_⟩
    cases hok
    exact ⟨s', rfl, hvars.symm, hbench.symm, hroutine.symm⟩

/-- A definition and a call. -/
def plainLines : List Text :=
  ["def f".toList, "c = Computer.new(\u00a02)".toList,
    "c.insert(\"PUSH\", 7).insert(\"PRINT\").set_address(0).execute()".toList, "end".toList,
    "f".toList]

/-- The same with comments, blank lines and blanks of many kinds, newlines among them. -/
def spreadLines : List Text :=
  ["# print a number".toList, "\u3000def f ".toList, "\u2029".toList,
    "\tc = Computer.new(\u00a02)\u2003".toList, "  # the program".toList,
    "\n c.insert(\"PUSH\", 7).insert(\"PRINT\").set_address(0).execute() \u0085\n".toList,
    "\r".toList, "end\u1680".toList, "f\n".toList]

/-- Both ways to lay out the lines print the number. -/
theorem readLines_of_same_outline_spread : ∃ s s',
    fresh.readLines 4 plainLines = .ok (s, [.printed 7]) ∧
      fresh.readLines 4 spreadLines = .ok (s', [.printed 7]) ∧ s'.bench = s.bench ∧
      s'.routine.map Routine.trimmed = s.routine.map Routine.trimmed := by
  have houtline : Line.outline plainLines = Line.outline spreadLines := by decide
  have hplain : ∃ s, fresh.readLines 4 plainLines = .ok (s, [.printed 7]) := ⟨_, rfl⟩
  obtain ⟨s, hread⟩ := hplain
  obtain ⟨s', hread', -, hbench, hroutine⟩ := (readLines_of_same_outline houtline 4).2 s _ hread
  exact ⟨s, s', hread, hread', hbench, hroutine⟩

end Session

end CellMachine
