import CellMachine.Proofs.Script.Line
import CellMachine.Proofs.Session.Records
import CellMachine.Proofs.Session.Sound

/-! # Which line emits what

Every record that a session emits belongs to one line. A line that spells out the end of the session
emits the end and nothing else, in whatever state the session is; a line that calls the complete
routine emits reports; all other lines are silent. And the end of a session leaves nothing behind:
what follows is as in a fresh session.

* `Line.isExit`, `Session.Calls`: lines that end the session, and lines that call the routine, both
  said of the trimmed text.
* `calls_of_classify`: only such a line is taken for a call.
* `Session.Attributed`, `attributed_of_readLine`: what a line may emit, and that it emits no more.
* `count_ended_of_readLines`, `readLines_exit`: how many ends there are, and what comes after one.
* `records_attributed`: all of this for the lines of a whole session. -/

namespace CellMachine

open Reply

/-- **Lines that end the session.** -/
def Line.isExit (line : Text) : Bool := Text.trim line == "exit()".toList

theorem Line.isExit_iff {line : Text} : isExit line ↔ Text.trim line = "exit()".toList :=
  beq_iff_eq

theorem Line.classify_eq_exit_iff {routine : Option Routine} {line : Text} :
    classify routine line = .exit ↔ isExit line := by
  rw [isExit_iff]
  refine ⟨fun h => ?_, fun h => by rw [classify, if_pos h]⟩
  by_contra hexit
  rw [classify, if_neg hexit] at h
  split_ifs at h
  rcases statement_cases routine (Text.trim line) with
    ⟨name, w, hs, -⟩ | ⟨name, hs, -⟩ | hs | hs <;>
  · rw [hs] at h
    cases h

namespace Session

variable {limit : Nat} {s s' : Session} {line : Text} {lines : List Text} {out : List Record}

/-- **Lines that call the complete routine:** its name alone, with or without `()` behind it. -/
def Calls (s : Session) (line : Text) : Prop :=
  ∃ r, s.routine = some r ∧ r.closed = true ∧
    (Text.trim line = r.name ∨ Text.trim line = r.name ++ "()".toList)

/-- **What a line may emit:** the end of the session and nothing else, reports only, or nothing. -/
structure Attributed (s : Session) (line : Text) (out : List Record) : Prop where
  exit : Line.isExit line → out = [.ended]
  call : ¬ Line.isExit line → s.Calls line → ∀ record ∈ out, record.isReport
  other : ¬ Line.isExit line → ¬ s.Calls line → out = []

/-! ## One line -/

theorem exists_isCalledBy_of_statement {routine : Option Routine} {t : Text}
    (h : Line.statement routine t = .call) : ∃ r, routine = some r ∧ r.isCalledBy t := by
  rw [Line.statement] at h
  split at h
  · rename_i name value hassign
    cases hw : Word.ofInt? value <;> rw [hw] at h <;> cases h
  · split at h
    · cases h
    · cases routine with
      | none => cases h
      | some r =>
        refine ⟨r, rfl, ?_⟩
        by_contra hcalled
        rw [Option.any_some, if_neg hcalled] at h
        cases h

/-- **Only a line that calls the complete routine is taken for a call.** -/
theorem calls_of_classify (h : Line.classify s.routine line = .call) : s.Calls line := by
  rw [Line.classify] at h
  split_ifs at h with hexit hignored hcapturing hend
  obtain ⟨r, hr, hcalled⟩ := exists_isCalledBy_of_statement h
  have hclosed : r.closed = true := by
    rw [hr] at hcapturing
    by_contra hopen
    exact hcapturing (by simp [Line.capturing, Routine.isOpen, hopen])
  have hname := Line.eq_name_of_isCalledBy hcalled
  rw [Text.trim_trim] at hname
  exact ⟨r, hr, hclosed, hname⟩

theorem attributed_of_readLine (h : s.readLine limit line = .ok (s', out)) :
    s.Attributed line out := by
  rcases readLine_cases limit s line with ⟨hend, hread⟩ | ⟨hcall, r, -, hread⟩ | ⟨s₁, hread, -⟩
  · have hexit : Line.isExit line := Line.classify_eq_exit_iff.mp hend
    rw [hread] at h
    cases h
    exact ⟨fun _ => rfl, fun hnot => absurd hexit hnot, fun hnot => absurd hexit hnot⟩
  · have hexit : ¬ Line.isExit line := by
      intro hexit
      rw [Line.classify_eq_exit_iff.mpr hexit] at hcall
      cases hcall
    rw [hread] at h
    exact ⟨fun hnot => absurd hnot hexit, fun _ _ => isReport_of_call h,
      fun _ hnot => absurd (calls_of_classify hcall) hnot⟩
  · have hexit : ¬ Line.isExit line := by
      intro hexit
      rw [readLine, Line.classify_eq_exit_iff.mpr hexit] at hread
      cases hread
    rw [hread] at h
    cases h
    exact ⟨fun hnot => absurd hnot hexit, fun _ _ => by simp, fun _ _ => rfl⟩

theorem readLine_of_isExit (limit : Nat) (s : Session) (h : Line.isExit line) :
    s.readLine limit line = .ok (fresh, [.ended]) := by
  rw [readLine, Line.classify_eq_exit_iff.mpr h]
  rfl

theorem Attributed.count_ended (h : s.Attributed line out) :
    out.count .ended = if Line.isExit line then 1 else 0 := by
  by_cases hexit : Line.isExit line
  · rw [h.exit hexit, if_pos hexit]
    rfl
  · rw [if_neg hexit, List.count_eq_zero]
    intro hended
    by_cases hcalls : s.Calls line
    · exact absurd (h.call hexit hcalls .ended hended) (by decide)
    · rw [h.other hexit hcalls] at hended
      cases hended

/-! ## Whole sessions -/

theorem count_ended_of_readLines (h : s.readLines limit lines = .ok (s', out)) :
    out.count .ended = lines.countP Line.isExit := by
  induction lines generalizing s out with
  | nil =>
    cases h
    rfl
  | cons line lines ih =>
    obtain ⟨s₁, out₁, out₂, hline, hlines, rfl⟩ := andThen_eq_ok_iff.mp h
    rw [List.count_append, (attributed_of_readLine hline).count_ended, ih hlines,
      List.countP_cons, Nat.add_comm]

theorem readLines_exit {before behind : List Text} (hexit : Line.isExit line) :
    s.readLines limit (before ++ [line] ++ behind) = .ok (s', out) ↔
      ∃ s₁ out₁ out₂, s.readLines limit before = .ok (s₁, out₁) ∧
        fresh.readLines limit behind = .ok (s', out₂) ∧ out = out₁ ++ .ended :: out₂ := by
  have hend : ∀ s₁ : Session, s₁.readLine limit line = .ok (fresh, [.ended]) :=
    fun s₁ => readLine_of_isExit limit s₁ hexit
  rw [List.append_assoc]
  constructor
  · intro h
    obtain ⟨s₁, s₂, out₁, out₂, out₃, hbefore, hline, hbehind, rfl⟩ := readLines_split h
    rw [hend s₁] at hline
    cases hline
    exact ⟨s₁, out₁, out₃, hbefore, hbehind, by simp⟩
  · rintro ⟨s₁, out₁, out₂, hbefore, hbehind, rfl⟩
    rw [readLines_append]
    refine andThen_eq_ok_iff.mpr ⟨s₁, out₁, .ended :: out₂, hbefore, ?_, rfl⟩
    exact andThen_eq_ok_iff.mpr ⟨fresh, [.ended], out₂, hend s₁, hbehind, rfl⟩

/-- **Every record belongs to a line, and the end of a session leaves nothing behind.** When lines
are answered, each of them has emitted what such a line may emit in the state it met: the end of the
session if it spells it out, reports if it calls the complete routine, and nothing otherwise. So
there are as many ends as lines that spell them out. The lines behind such a line are answered as by
a fresh session, which also leaves its variables, its routine and its bench. -/
theorem records_attributed (limit : Nat) (s : Session) :
    (∀ lines s' out, s.readLines limit lines = .ok (s', out) →
      (∀ before line behind, lines = before ++ line :: behind →
        ∃ s₁ s₂ out₁ out₂ out₃, s.readLines limit before = .ok (s₁, out₁) ∧
          s₁.readLine limit line = .ok (s₂, out₂) ∧ s₂.readLines limit behind = .ok (s', out₃) ∧
          out = out₁ ++ out₂ ++ out₃ ∧ s₁.Attributed line out₂) ∧
      out.count .ended = lines.countP Line.isExit) ∧
    ∀ before line behind, Line.isExit line →
      ∀ s' out, s.readLines limit (before ++ [line] ++ behind) = .ok (s', out) ↔
        ∃ s₁ out₁ out₂, s.readLines limit before = .ok (s₁, out₁) ∧
          fresh.readLines limit behind = .ok (s', out₂) ∧ out = out₁ ++ .ended :: out₂ := by
  refine ⟨fun lines s' out h => ⟨?_, count_ended_of_readLines h⟩,
    fun before line behind hexit s' out => readLines_exit hexit⟩
  rintro before line behind rfl
  obtain ⟨s₁, s₂, out₁, out₂, out₃, hbefore, hline, hbehind, hout⟩ := readLines_split h
  exact ⟨s₁, s₂, out₁, out₂, out₃, hbefore, hline, hbehind, hout, attributed_of_readLine hline⟩

/-- A routine with the name `exit` is called, and fails to print; then the session ends, and it ends
again while a routine is being defined. -/
theorem records_attributed_named_exit : ∃ s out,
    fresh.readLines 2 (["def exit".toList, "c = Computer.new(1)".toList,
        "c.insert(\"PRINT\").set_address(0).execute()".toList, "end".toList, "exit".toList] ++
        [" exit() ".toList] ++
        ["x = 1".toList, "def f".toList, "exit()".toList, "y = 2".toList]) = .ok (s, out) ∧
      out = [.failure (Fault.missingOutput 0).message, .ended, .ended] ∧
      out.count .ended = 2 ∧ s.vars = [("y".toList, 2)] := by
  have h := records_attributed 2 fresh
  have hread := (h.2 ["def exit".toList, "c = Computer.new(1)".toList,
    "c.insert(\"PRINT\").set_address(0).execute()".toList, "end".toList, "exit".toList]
    " exit() ".toList ["x = 1".toList, "def f".toList, "exit()".toList, "y = 2".toList] (by decide)
    _ _).mpr ⟨_, _, _, rfl, rfl, rfl⟩
  exact ⟨_, _, hread, rfl, (h.1 _ _ _ hread).2.trans (by decide), rfl⟩

end Session

end CellMachine
