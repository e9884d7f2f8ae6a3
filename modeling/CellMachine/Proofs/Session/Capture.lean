import CellMachine.Proofs.Script.Line
import CellMachine.Proofs.Session.Records

/-! # Capture and replay

The lines between the opening and the closing of a definition are captured and not looked at,
whatever they spell out; blank lines and comments are dropped. They come to matter when the routine
is called: each call replays them in order on the bench of the moment, with the variables of the
moment, and changes nothing but the bench.

* `Routine.captured`: the routine with the meaningful ones of some lines captured.
* `readLine_of_open`, `readLines_of_open`: what one line and a list of lines do to an open routine.
* `readLines_definition`: a whole definition.
* `captured_then_replayed`: definition and calls together. -/

namespace CellMachine

/-- **The routine with lines captured:** the meaningful ones, as they are and in order. -/
def Routine.captured (r : Routine) (lines : List Text) : Routine :=
  { r with body := r.body ++ lines.filter Line.isMeaningful }

theorem Routine.captured_nil (r : Routine) : r.captured [] = r := by
  simp [captured]

theorem Routine.captured_cons (r : Routine) (line : Text) (lines : List Text) :
    r.captured (line :: lines) = (r.captured [line]).captured lines := by
  cases h : Line.isMeaningful line <;> simp [captured, h]

namespace Session

variable {s : Session} {r : Routine} {line f : Text} {lines : List Text}

/-! ## Capture -/

theorem capturing_of_open (hr : s.routine = some r) (hopen : r.closed = false) :
    Line.capturing s.routine = true := by
  rw [hr]
  show (!r.closed) = true
  rw [hopen]
  rfl

theorem readLine_of_open (limit : Nat) (hr : s.routine = some r) (hopen : r.closed = false)
    (hexit : Text.trim line ≠ "exit()".toList) (hend : Text.trim line ≠ "end".toList) :
    s.readLine limit line = .ok ({ s with routine := some (r.captured [line]) }, []) := by
  rw [readLine]
  cases hline : Line.isMeaningful line with
  | false =>
    have hsame : r.captured [line] = r := by simp [Routine.captured, hline]
    rw [Line.classify_of_not_meaningful hexit hline, hsame, ← hr]
    rfl
  | true =>
    have hnew : r.captured [line] = r.capture line := by
      simp [Routine.captured, Routine.capture, hline]
    rw [Line.classify_of_meaningful hexit hline, capturing_of_open hr hopen, if_pos rfl,
      if_neg hend, hnew, act, hr]
    rfl

theorem readLines_of_open (limit : Nat) (hr : s.routine = some r) (hopen : r.closed = false)
    (hlines : ∀ line ∈ lines, Text.trim line ≠ "exit()".toList ∧ Text.trim line ≠ "end".toList) :
    s.readLines limit lines = .ok ({ s with routine := some (r.captured lines) }, []) := by
  induction lines generalizing s r with
  | nil =>
    rw [r.captured_nil, ← hr]
    rfl
  | cons line lines ih =>
    obtain ⟨hexit, hend⟩ := hlines line (List.mem_cons_self ..)
    have htail := ih (s := { s with routine := some (r.captured [line]) }) rfl hopen
      fun line' hline' => hlines line' (List.mem_cons_of_mem _ hline')
    rw [readLines, feed_cons, readLine_of_open limit hr hopen hexit hend, Reply.silent_andThen,
      r.captured_cons line lines]
    exact htail

theorem readLine_end (limit : Nat) (hr : s.routine = some r) (hopen : r.closed = false)
    (hend : Text.trim line = "end".toList) :
    s.readLine limit line = .ok ({ s with routine := some r.close }, []) := by
  have hclosing : Line.classify s.routine line = .closing := by
    have hsame : Text.trim line = Text.trim "end".toList := hend
    rw [Line.classify_congr hsame, Line.classify_of_meaningful (by decide) (by decide),
      capturing_of_open hr hopen]
    rfl
  rw [readLine, hclosing, act, hr]
  rfl

/-- **A whole definition.** It emits nothing, and all it changes is the routine. -/
theorem readLines_definition (limit : Nat) (hs : s.isCapturing = false) (hf : Text.Identifier f)
    (hlines : ∀ line ∈ lines, Text.trim line ≠ "exit()".toList ∧ Text.trim line ≠ "end".toList) :
    s.readLines limit (("def ".toList ++ f) :: lines ++ ["end".toList]) =
      .ok ({ s with routine := some ⟨f, lines.filter Line.isMeaningful, true⟩ }, []) := by
  have hopening : s.readLine limit ("def ".toList ++ f) =
      .ok ({ s with routine := some (Routine.opened f) }, []) := by
    rw [readLine, Line.classify_definition hf hs]
    rfl
  have hbody := readLines_of_open (s := { s with routine := some (Routine.opened f) }) limit rfl rfl
    hlines
  have hclosing := readLine_end limit (r := (Routine.opened f).captured lines)
    (s := { s with routine := some ((Routine.opened f).captured lines) }) rfl rfl
    (show Text.trim "end".toList = "end".toList by decide)
  rw [readLines, List.cons_append, feed_cons, hopening, Reply.silent_andThen, feed_append]
  rw [readLines] at hbody
  rw [hbody, Reply.silent_andThen, feed_cons, hclosing, Reply.silent_andThen]
  rfl

/-! ## Replay -/

/-- **What is captured is replayed.** Reading a definition emits nothing and leaves a complete
routine of the meaningful lines, with variables and bench as they were. A call of the routine, at
any time while it is the one defined, emits what the replay of these lines emits, leaves the bench
that the replay leads to, and aborts only when the replay does; variables and routine stay. -/
theorem captured_then_replayed (hs : s.isCapturing = false) (hf : Text.Identifier f)
    (hlines : ∀ line ∈ lines, Text.trim line ≠ "exit()".toList ∧ Text.trim line ≠ "end".toList) :
    (∀ limit, s.readLines limit (("def ".toList ++ f) :: lines ++ ["end".toList]) =
      .ok (⟨s.vars, some ⟨f, lines.filter Line.isMeaningful, true⟩, s.bench⟩, [])) ∧
    ∀ (later : Session) (line : Text),
      later.routine = some ⟨f, lines.filter Line.isMeaningful, true⟩ →
      (Text.trim line = f ∨ Text.trim line = f ++ "()".toList ∧ f ≠ "exit".toList) →
      ∀ limit later' out, later.readLine limit line = .ok (later', out) ↔
        feed (replayLine limit later.vars) later.bench (lines.filter Line.isMeaningful) =
            .ok (later'.bench, out) ∧
          later'.vars = later.vars ∧ later'.routine = later.routine := by
  refine ⟨fun limit => readLines_definition limit hs hf hlines, ?_⟩
  intro later line hr hline limit later' out
  have hcall : Line.classify later.routine line = .call := by
    rw [hr]
    exact Line.classify_call hf rfl hline
  rw [readLine_of_call limit hr hcall, replay, Reply.andThen_eq_ok_iff]
  constructor
  · rintro ⟨bench, out₁, out₂, hreplay, hlast, rfl⟩
    cases hlast
    exact ⟨by rw [hreplay, List.append_nil], rfl, rfl⟩
  · rintro ⟨hreplay, hvars, hroutine⟩
    refine ⟨later'.bench, out, [], hreplay, ?_, (List.append_nil out).symm⟩
    rw [← hvars, ← hroutine]

/-- A routine named like a keyword, with a comment and a definition among its lines. It is called
when a variable has got a value that it had not when the routine was defined. -/
theorem captured_then_replayed_keyword :
    fresh.readLines 0 ["def end".toList, "# note".toList, "def f".toList,
        " c = Computer.new(1)".toList, "c.set_address(x)".toList, "end".toList] =
      .ok (⟨[], some ⟨"end".toList, ["def f".toList, " c = Computer.new(1)".toList,
        "c.set_address(x)".toList], true⟩, none⟩, []) ∧
    readLine 0 ⟨[("x".toList, 1)], some ⟨"end".toList, ["def f".toList,
        " c = Computer.new(1)".toList, "c.set_address(x)".toList], true⟩, none⟩ " end()".toList =
      .ok (⟨[("x".toList, 1)], some ⟨"end".toList, ["def f".toList,
        " c = Computer.new(1)".toList, "c.set_address(x)".toList], true⟩,
        some ⟨"c".toList, ⟨Store.vacant 1, 0⟩⟩⟩,
        [.failure (Fault.counterOutOfBounds 1 1).message]) := by
  have hend : Text.Identifier "end".toList := by decide
  have hlines : ∀ line ∈ ["# note".toList, "def f".toList, " c = Computer.new(1)".toList,
      "c.set_address(x)".toList],
      Text.trim line ≠ "exit()".toList ∧ Text.trim line ≠ "end".toList := by decide
  have h := captured_then_replayed (s := fresh) rfl hend hlines
  exact ⟨h.1 0, (h.2 _ " end()".toList rfl (Or.inr (by decide)) 0 _ _).mpr ⟨rfl, rfl, rfl⟩⟩

end Session

end CellMachine
