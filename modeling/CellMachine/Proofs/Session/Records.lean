import CellMachine.Proofs.Script.Line
import CellMachine.Proofs.Script.Report
import CellMachine.Session

/-! # What lines do and emit

All that a line can do to a session is said once (`readLine_cases`): it ends the session, it calls
the routine, or it emits nothing and leaves the bench alone. From this follows what lines emit.

* `readLine_of_call`: a call is a replay.
* `readLines_append`, `readLines_split`: lines taken apart.
* `records_of_readLine`: a line emits the end of the session and nothing else, or reports only.
* `eq_ended_of_mem`: the end of the session is emitted alone.
* `unechoed_readSource`: but for the echoes, reading a source text is reading its lines. -/

namespace CellMachine.Session

open Reply

variable {s s' : Session} {r : Routine} {line : Text} {out : List Record} {limit : Nat}

theorem readLine_of_not_meaningful (limit : Nat) (s : Session) (line : Text)
    (h : Line.isMeaningful line = false) : s.readLine limit line = .silent s := by
  have hexit : Text.trim line ≠ "exit()".toList := by
    intro heq
    rw [Line.isMeaningful, heq] at h
    exact absurd h (by decide)
  rw [readLine, Line.classify_of_not_meaningful hexit h]
  rfl

theorem readLine_of_call (limit : Nat) (hr : s.routine = some r)
    (hline : Line.classify s.routine line = .call) :
    s.readLine limit line =
      Reply.andThen (replay limit s.vars s.bench r.body) fun bench => .silent { s with bench } := by
  rw [readLine, hline, act, call, hr]

/-- **All that a line can do.** A line that neither ends the session nor calls leaves the bench
alone, and the routine has the lines it had, with this line behind them or not, or has none yet. -/
theorem readLine_cases (limit : Nat) (s : Session) (line : Text) :
    (Line.classify s.routine line = .exit ∧ s.readLine limit line = .ok (fresh, [.ended])) ∨
      (Line.classify s.routine line = .call ∧ ∃ r, s.routine = some r ∧
        s.readLine limit line = Reply.andThen (replay limit s.vars s.bench r.body) fun bench =>
          .silent { s with bench }) ∨
      ∃ s', s.readLine limit line = .silent s' ∧ s'.bench = s.bench ∧
        ∀ r' ∈ s'.routine, r'.body = [] ∨
          ∃ r ∈ s.routine, r'.body = r.body ∨ r'.body = r.body ++ [line] := by
  have hkept : ∀ r' ∈ s.routine, r'.body = [] ∨
      ∃ r ∈ s.routine, r'.body = r.body ∨ r'.body = r.body ++ [line] :=
    fun r' hr' => Or.inr ⟨r', hr', Or.inl rfl⟩
  cases hline : Line.classify s.routine line with
  | exit => exact Or.inl ⟨rfl, by rw [readLine, hline]; rfl⟩
  | call =>
    cases hr : s.routine with
    | none =>
      refine Or.inr (Or.inr ⟨s, ?_, rfl, by rw [hr]; nofun⟩)
      rw [readLine, hline, act, call, hr]
    | some r =>
      refine Or.inr (Or.inl ⟨rfl, r, rfl, ?_⟩)
      have hcall := readLine_of_call limit hr hline
      rw [hr] at hcall
      exact hcall
  | ignored | unrecognized =>
    exact Or.inr (Or.inr ⟨s, by rw [readLine, hline]; rfl, rfl, hkept⟩)
  | closing =>
    refine Or.inr (Or.inr ⟨{ s with routine := s.routine.map Routine.close },
      by rw [readLine, hline]; rfl, rfl, fun r' hr' => ?_⟩)
    obtain ⟨r, hr, rfl⟩ := Option.map_eq_some_iff.mp hr'
    exact Or.inr ⟨r, hr, Or.inl rfl⟩
  | body =>
    refine Or.inr (Or.inr ⟨{ s with routine := s.routine.map fun r => r.capture line },
      by rw [readLine, hline]; rfl, rfl, fun r' hr' => ?_⟩)
    obtain ⟨r, hr, rfl⟩ := Option.map_eq_some_iff.mp hr'
    exact Or.inr ⟨r, hr, Or.inr rfl⟩
  | assignment name value =>
    exact Or.inr (Or.inr ⟨{ s with vars := s.vars.assign name value },
      by rw [readLine, hline]; rfl, rfl, hkept⟩)
  | opening name =>
    refine Or.inr (Or.inr ⟨{ s with routine := some (Routine.opened name) },
      by rw [readLine, hline]; rfl, rfl, fun r' hr' => ?_⟩)
    cases hr'
    exact Or.inl rfl

theorem readLines_append (limit : Nat) (s : Session) (before behind : List Text) :
    s.readLines limit (before ++ behind) =
      Reply.andThen (s.readLines limit before) fun s' => s'.readLines limit behind :=
  feed_append (readLine limit) s before behind

theorem readLines_split {before behind : List Text}
    (h : s.readLines limit (before ++ line :: behind) = .ok (s', out)) :
    ∃ s₁ s₂ out₁ out₂ out₃, s.readLines limit before = .ok (s₁, out₁) ∧
      s₁.readLine limit line = .ok (s₂, out₂) ∧ s₂.readLines limit behind = .ok (s', out₃) ∧
      out = out₁ ++ out₂ ++ out₃ := feed_split h

/-! ## Records -/

theorem isReport_of_call (h : Reply.andThen (replay limit s.vars s.bench r.body)
    (fun bench => .silent { s with bench }) = .ok (s', out)) :
    ∀ record ∈ out, record.isReport := by
  obtain ⟨bench, hreplay, -⟩ := andThen_silent_eq_ok_iff.mp h
  exact isReport_of_replay hreplay

/-- **What a line emits:** the end of the session and nothing else, or reports only. -/
theorem records_of_readLine (h : s.readLine limit line = .ok (s', out)) :
    out = [.ended] ∨ ∀ record ∈ out, record.isReport := by
  rcases readLine_cases limit s line with ⟨-, hend⟩ | ⟨-, r, -, hcall⟩ | ⟨s₁, hsilent, -⟩
  · rw [hend] at h
    cases h
    exact Or.inl rfl
  · rw [hcall] at h
    exact Or.inr (isReport_of_call h)
  · rw [hsilent] at h
    cases h
    exact Or.inr (by simp)

theorem isEcho_of_readLine (h : s.readLine limit line = .ok (s', out)) :
    ∀ record ∈ out, record.isEcho = false := by
  intro record hrecord
  rcases records_of_readLine h with rfl | hreport
  · rw [List.mem_singleton.mp hrecord]
    rfl
  · have hrecord' := hreport record hrecord
    cases record with
    | printed | failure => rfl
    | echo | ended => cases hrecord'

theorem eq_ended_of_mem (h : s.readLine limit line = .ok (s', out)) (hended : .ended ∈ out) :
    out = [.ended] := by
  rcases records_of_readLine h with rfl | hreport
  · rfl
  · exact absurd (hreport .ended hended) (by decide)

/-! ## Echoes -/

theorem unechoed_readLine (limit : Nat) (s : Session) (line : Text) :
    (s.readLine limit line).unechoed = s.readLine limit line :=
  unechoed_eq_self fun _ _ h => isEcho_of_readLine h

theorem unechoed_echoLine (limit : Nat) (s : Session) (line : Text) :
    (s.echoLine limit line).unechoed = s.readLine limit line := by
  have hecho : unechoed (.ok (s, [.echo line])) = .ok (s, []) := rfl
  rw [echoLine, unechoed_andThen, hecho, silent_andThen, unechoed_readLine]

theorem unechoed_readSource (limit : Nat) (s : Session) (source : Text) :
    (s.readSource limit source).unechoed = s.readLines limit (sourceLines source) := by
  rw [readSource, unechoed_feed, readLines]
  simp only [unechoed_echoLine]

end CellMachine.Session
