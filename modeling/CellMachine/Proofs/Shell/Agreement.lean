import CellMachine.Proofs.Script.Line
import CellMachine.Proofs.Session.Records
import CellMachine.Proofs.Text.Lines
import CellMachine.Shell.Invocation

/-! # Dialogues and scripts agree

The same text can be entered in a dialogue or run as a script. The two cut it into lines
differently: a script has a last line even where nothing follows the last newline, and cuts a
carriage return off its last line too. And a dialogue stops at the end of the session, where a
script goes on afresh. None of this changes what is told: a dialogue tells what the script tells, up
to the end of the session.

* `Record.upToEnd`: records up to the first end of a session.
* `delivered`, `stdout_dialogue`: the records that a dialogue delivers, and that it writes just
  these.
* `delivered_of_readLines`: they are those of its lines, up to the end of the session.
* `records_readLine_congr`: what a line emits depends on its trimmed text only.
* `delivered_enteredLines`: the two ways to cut a text into lines make no difference to a dialogue.
* `dialogue_tells_what_script_tells`: both invocations on one text. -/

namespace CellMachine

/-! ## Up to the end of the session -/

/-- **Records up to the end of the session:** cut off just after the first end, all when there is
none. -/
def Record.upToEnd : List Record → List Record
  | [] => []
  | record :: records => record :: if record = .ended then [] else upToEnd records

theorem Record.upToEnd_append {before : List Record} (h : .ended ∉ before) (behind : List Record) :
    upToEnd (before ++ behind) = before ++ upToEnd behind := by
  induction before with
  | nil => rfl
  | cons record before ih =>
    obtain ⟨hrecord, hbefore⟩ := not_or.mp (List.mem_cons.not.mp h)
    rw [List.cons_append, upToEnd, if_neg (Ne.symm hrecord), ih hbefore, List.cons_append]

theorem Record.mem_of_mem_upToEnd {record : Record} {records : List Record}
    (h : record ∈ upToEnd records) : record ∈ records := by
  induction records with
  | nil => exact h
  | cons first records ih =>
    rw [upToEnd] at h
    rcases List.mem_cons.mp h with rfl | h
    · exact List.mem_cons_self ..
    · split at h
      · cases h
      · exact List.mem_cons_of_mem _ (ih h)

theorem Record.upToEnd_ended (behind : List Record) : upToEnd (.ended :: behind) = [.ended] := rfl

/-! ## The records of a dialogue -/

open Session Reply Record

variable {limit : Nat} {s s' : Session} {line : Text} {lines : List Text} {out : List Record}

/-- **The records that a dialogue delivers.** No line is read after one that ends the session or
that cannot be read. -/
def delivered (limit : Nat) (s : Session) : List (Option Text) → Except Abort (List Record)
  | [] | none :: _ => .ok []
  | some line :: lines =>
    match s.readLine limit line with
    | .error abort => .error abort
    | .ok (s', out) =>
      if .ended ∈ out then .ok out else (delivered limit s' lines).map (out ++ ·)

section OneLine

variable (hline : s.readLine limit line = .ok (s', out)) (rest : List (Option Text))
include hline

theorem delivered_of_ended (hended : .ended ∈ out) :
    delivered limit s (some line :: rest) = .ok out := by
  simp only [delivered, hline, if_pos hended]

theorem delivered_of_not_ended (hended : .ended ∉ out) :
    delivered limit s (some line :: rest) = (delivered limit s' rest).map (out ++ ·) := by
  simp only [delivered, hline, if_neg hended]

theorem dialogue_of_ended (hended : .ended ∈ out) :
    dialogue limit s (some line :: rest) = .ok ⟨0, transcript true out, prompt⟩ := by
  simp only [dialogue, turn, hline, Except.map, if_pos hended, List.append_nil]

theorem dialogue_of_not_ended (hended : .ended ∉ out) :
    dialogue limit s (some line :: rest) = (dialogue limit s' rest).map fun report =>
      ⟨report.code, transcript true out ++ report.stdout, prompt ++ report.stderr⟩ := by
  simp only [dialogue, turn, hline, Except.map, if_neg hended, List.append_nil]

end OneLine

theorem transcript_append (quiet : Bool) (out out' : List Record) :
    transcript quiet (out ++ out') = transcript quiet out ++ transcript quiet out' := by
  cases quiet <;> simp [transcript, Record.lines]

theorem transcript_of_no_echo (quiet : Bool) (h : ∀ record ∈ out, record.isEcho = false) :
    transcript quiet out = Record.lines out := by
  rw [transcript, filter_of_no_echo h, ite_self]

theorem stdout_dialogue (limit : Nat) (s : Session) (lines : List (Option Text)) :
    (dialogue limit s lines).map Report.stdout =
      (delivered limit s lines).map (transcript true) := by
  induction lines generalizing s with
  | nil => rfl
  | cons line lines ih =>
    cases line with
    | none => rfl
    | some line =>
      rcases hline : s.readLine limit line with abort | ⟨s', out⟩
      · simp only [dialogue, turn, delivered, hline, Except.map]
      · by_cases hended : .ended ∈ out
        · rw [dialogue_of_ended hline lines hended, delivered_of_ended hline lines hended]
          rfl
        · rw [dialogue_of_not_ended hline lines hended, delivered_of_not_ended hline lines hended]
          calc ((dialogue limit s' lines).map fun report => Report.mk report.code
                (transcript true out ++ report.stdout) (prompt ++ report.stderr)).map Report.stdout
            _ = ((dialogue limit s' lines).map Report.stdout).map (transcript true out ++ ·) := by
              cases dialogue limit s' lines <;> rfl
            _ = ((delivered limit s' lines).map (transcript true)).map
                (transcript true out ++ ·) := by rw [ih s']
            _ = ((delivered limit s' lines).map (out ++ ·)).map (transcript true) := by
              cases delivered limit s' lines <;> simp [Except.map, transcript_append]

theorem delivered_singleton (limit : Nat) (s : Session) (line : Text) :
    delivered limit s [some line] = (s.readLine limit line).map Prod.snd := by
  rw [delivered]
  rcases s.readLine limit line with abort | ⟨s', out⟩
  · rfl
  · simp [delivered, Except.map]

theorem delivered_append_congr {last last' : List (Option Text)}
    (h : ∀ s, delivered limit s last = delivered limit s last') (s : Session)
    (lines : List (Option Text)) :
    delivered limit s (lines ++ last) = delivered limit s (lines ++ last') := by
  induction lines generalizing s with
  | nil => exact h s
  | cons line lines ih =>
    cases line with
    | none => rfl
    | some line => simp only [List.cons_append, delivered, ih]

/-- **A dialogue delivers what its lines emit,** up to the end of the session. -/
theorem delivered_of_readLines (h : s.readLines limit lines = .ok (s', out)) :
    delivered limit s (lines.map some) = .ok (upToEnd out) := by
  induction lines generalizing s out with
  | nil =>
    cases h
    rfl
  | cons line lines ih =>
    obtain ⟨s₁, out₁, out₂, hline, hlines, rfl⟩ := andThen_eq_ok_iff.mp h
    rw [List.map_cons]
    by_cases hended : .ended ∈ out₁
    · obtain rfl := eq_ended_of_mem hline hended
      rw [delivered_of_ended hline _ hended, List.singleton_append, upToEnd_ended]
    · rw [delivered_of_not_ended hline _ hended, ih hlines, upToEnd_append hended]
      rfl

/-! ## Lines that differ in their ends -/

/-- **What a line emits depends on its trimmed text only.** What is captured may differ. -/
theorem records_readLine_congr {line' : Text} (limit : Nat) (s : Session)
    (h : Text.trim line = Text.trim line') :
    (s.readLine limit line).map Prod.snd = (s.readLine limit line').map Prod.snd := by
  rw [readLine, readLine, Line.classify_congr h]
  cases Line.classify s.routine line' <;> rfl

theorem readLine_nil (limit : Nat) (s : Session) : s.readLine limit [] = .silent s :=
  readLine_of_not_meaningful limit s [] (by decide)

/-- The lines of a text that is run and of one that is entered differ in the last line at most. -/
theorem sourceLines_enteredLines (t : Text) : ∃ lines last,
    sourceLines t = lines ++ [Text.without ['\r'] last] ∧
      Text.enteredLines t = lines ++ [last].filter fun piece => !piece.isEmpty := by
  have hne : t.splitOn '\n' ≠ [] := List.splitOn_ne_nil '\n' t
  refine ⟨(t.splitOn '\n').dropLast.map (Text.without ['\r']), (t.splitOn '\n').getLast hne, ?_, ?_⟩
  · conv_lhs => rw [sourceLines, ← List.dropLast_concat_getLast hne, List.map_append]
    rfl
  · rw [Text.enteredLines, List.getLast?_eq_some_getLast hne, Option.toList_some]

theorem delivered_enteredLines (limit : Nat) (s : Session) (t : Text) :
    delivered limit s ((Text.enteredLines t).map some) =
      delivered limit s ((sourceLines t).map some) := by
  obtain ⟨lines, last, hsource, hentered⟩ := sourceLines_enteredLines t
  rw [hsource, hentered, List.map_append, List.map_append, List.map_singleton]
  refine delivered_append_congr (fun s => ?_) s _
  rw [delivered_singleton]
  cases last with
  | nil =>
    -- a script reads one more line here, which is empty
    have hempty : Text.without ['\r'] [] = [] := rfl
    rw [hempty, readLine_nil]
    rfl
  | cons c last =>
    -- a script may have lost a carriage return here
    exact (delivered_singleton limit s (c :: last)).trans
      (records_readLine_congr limit s (Text.trim_without_return (c :: last)).symm)

/-! ## Invocations -/

section Invocations

variable {around : Surroundings} {args args' : List Text} {path source : Text}

theorem invoke_run {quiet : Bool} (h : Command.ofArgs args = .ok (.run quiet path)) :
    invoke limit around args = script limit quiet path (around.file path) := by
  rw [invoke, h]

theorem invoke_repl (h : Command.ofArgs args = .ok .repl) :
    invoke limit around args = dialogue limit fresh (Text.inputLines around.stdin) := by
  rw [invoke, h]

theorem script_toBytes (limit : Nat) (quiet : Bool) (path source : Text) :
    script limit quiet path (.ok (Text.toBytes source)) =
      (fresh.readSource limit source).map fun (_, out) => ⟨0, transcript quiet out, []⟩ := by
  simp only [script, Text.ofBytes?_toBytes]

/-- **Dialogues and scripts agree.** A text that a script runs without abort, with its echo off, and
that is entered in a dialogue: the dialogue delivers the records of the script that are no echoes,
up to the end of the session, and both write just these. -/
theorem dialogue_tells_what_script_tells (hrun : Command.ofArgs args = .ok (.run true path))
    (hrepl : Command.ofArgs args' = .ok .repl)
    (hfile : around.file path = .ok (Text.toBytes source))
    (hstdin : around.stdin = Text.toBytes source)
    (hread : fresh.readSource limit source = .ok (s, out)) :
    delivered limit fresh (Text.inputLines around.stdin) =
        .ok (upToEnd (out.filter fun record => !record.isEcho)) ∧
      invoke limit around args =
        .ok ⟨0, Record.lines (out.filter fun record => !record.isEcho), []⟩ ∧
      (invoke limit around args').map Report.stdout =
        .ok (Record.lines (upToEnd (out.filter fun record => !record.isEcho))) := by
  have hlines : fresh.readLines limit (sourceLines source) =
      .ok (s, out.filter fun record => !record.isEcho) := by
    rw [← unechoed_readSource, hread]
    rfl
  have hdelivered : delivered limit fresh (Text.inputLines around.stdin) =
      .ok (upToEnd (out.filter fun record => !record.isEcho)) := by
    rw [hstdin, Text.inputLines_toBytes, delivered_enteredLines, delivered_of_readLines hlines]
  refine ⟨hdelivered, ?_, ?_⟩
  · rw [invoke_run hrun, hfile, script_toBytes, hread]
    rfl
  · rw [invoke_repl hrepl, stdout_dialogue, hdelivered]
    refine congrArg Except.ok (transcript_of_no_echo true fun record hrecord => ?_)
    simpa using (List.mem_filter.mp (mem_of_mem_upToEnd hrecord)).2

/-- A text that ends the session twice, the second time with a carriage return and no newline. -/
def twiceEnded : Text :=
  ("def f\r\nc = Computer.new(1)\nc.insert(\"PUSH\", 7).insert(\"RET\")\nend\nf\n" ++
    "exit()\r\nf\nexit()\r").toList

/-- Surroundings in which a text is the content of every file and the standard input. -/
def Surroundings.holding (source : Text) : Surroundings :=
  ⟨fun _ => .ok (Text.toBytes source), Text.toBytes source⟩

/-- The script tells of both ends, the dialogue of the first. -/
theorem dialogue_tells_what_script_tells_twice_ended :
    invoke 0 (.holding twiceEnded) ["run".toList, "a.txt".toList, "-q".toList] =
      .ok ⟨0, Record.lines [.failure (Fault.addressOutOfBounds 1 1).message, .ended, .ended], []⟩ ∧
    (invoke 0 (.holding twiceEnded) ["repl".toList]).map Report.stdout =
      .ok (Record.lines [.failure (Fault.addressOutOfBounds 1 1).message, .ended]) := by
  obtain ⟨s, out, hread, hout⟩ : ∃ s out, fresh.readSource 0 twiceEnded = .ok (s, out) ∧
      (out.filter fun record => !record.isEcho) =
        [.failure (Fault.addressOutOfBounds 1 1).message, .ended, .ended] := ⟨_, _, rfl, rfl⟩
  have hrun : Command.ofArgs ["run".toList, "a.txt".toList, "-q".toList] =
      .ok (.run true "a.txt".toList) := rfl
  have hrepl : Command.ofArgs ["repl".toList] = .ok .repl := rfl
  have hfile : (Surroundings.holding twiceEnded).file "a.txt".toList =
      .ok (Text.toBytes twiceEnded) := rfl
  have h := dialogue_tells_what_script_tells hrun hrepl hfile rfl hread
  rw [hout] at h
  exact h.2

end Invocations

end CellMachine
