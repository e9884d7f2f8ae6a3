import CellMachine.Proofs.Session.Records
import CellMachine.Proofs.Text.Lines

/-! # Source texts, piece by piece

A source text is read in the pieces between its newlines, each without one carriage return at its
end. So two texts with a newline between them are read one after the other, and what is read of a
text are its pieces, each echoed just before its own records. Carriage returns before the newlines
make no difference.

* `length_splitOn`: a text has one piece more than newlines.
* `withReturns`, `splitOn_withReturns`: a text with a carriage return before each newline, and its
  pieces. `sourceLines_withReturns`: it has the lines of the text.
* `readSource_append`: texts with a newline between them.
* `echoed`, `feed_echoLine_eq_ok_iff`: records with the echoes of their lines, and that these are what
  echoed lines emit. `echoes_of_feed`: there is one echo for each line.
* `source_read_piecewise`: all of this for one text. -/

namespace CellMachine

/-! ## Pieces and returns -/

namespace Text

theorem length_splitOn (t : Text) : (t.splitOn '\n').length = t.count '\n' + 1 := by
  induction t with
  | nil => rfl
  | cons c t ih =>
    rw [List.splitOn_cons_eq_if_modifyHead, List.count_cons]
    split
    · rw [List.length_cons, ih]
    · rw [List.length_modifyHead, ih, Nat.add_zero]

/-- **The text with a carriage return before each newline.** -/
def withReturns (t : Text) : Text := t.flatMap fun c => if c = '\n' then ['\r', '\n'] else [c]

/-- Pieces with a carriage return at the end of each but the last. -/
def returned : List Text → List Text
  | [] => []
  | [piece] => [piece]
  | piece :: next :: pieces => (piece ++ ['\r']) :: returned (next :: pieces)

theorem returned_cons {pieces : List Text} (h : pieces ≠ []) (piece : Text) :
    returned (piece :: pieces) = (piece ++ ['\r']) :: returned pieces := by
  obtain ⟨next, rest, rfl⟩ := List.exists_cons_of_ne_nil h
  rfl

theorem returned_modifyHead (c : Char) (pieces : List Text) :
    returned (pieces.modifyHead (c :: ·)) = (returned pieces).modifyHead (c :: ·) := by
  rcases pieces with _ | ⟨piece, _ | ⟨next, rest⟩⟩ <;> rfl

theorem splitOn_withReturns (t : Text) :
    (withReturns t).splitOn '\n' = returned (t.splitOn '\n') := by
  induction t with
  | nil => rfl
  | cons c t ih =>
    have hcons : withReturns (c :: t) =
        (if c = '\n' then ['\r', '\n'] else [c]) ++ withReturns t := List.flatMap_cons
    rw [hcons, List.splitOn_cons_eq_if_modifyHead]
    by_cases hc : c = '\n'
    · subst hc
      rw [if_pos rfl, if_pos (beq_self_eq_true _), returned_cons (List.splitOn_ne_nil '\n' t), ← ih]
      rfl
    · have hbeq : (c == '\n') = false := beq_false_of_ne hc
      rw [if_neg hc, hbeq, if_neg Bool.false_ne_true, returned_modifyHead, ← ih,
        List.singleton_append, List.splitOn_cons_eq_if_modifyHead, hbeq, if_neg Bool.false_ne_true]

theorem without_of_getLast? {piece : Text} (h : piece.getLast? ≠ some '\r') :
    without ['\r'] piece = piece := by
  rcases without_cases ['\r'] piece with hsame | hcut
  · exact hsame
  · refine absurd ?_ h
    rw [hcut, List.getLast?_concat]

/-- Carriage returns that are put to the ends of pieces without one are cut off again. -/
theorem map_without_returned {pieces : List Text}
    (h : ∀ piece ∈ pieces, piece.getLast? ≠ some '\r') :
    (returned pieces).map (without ['\r']) = pieces.map (without ['\r']) := by
  induction pieces with
  | nil => rfl
  | cons piece pieces ih =>
    obtain ⟨hpiece, hpieces⟩ := List.forall_mem_cons.mp h
    cases pieces with
    | nil => rfl
    | cons next rest =>
      rw [returned, List.map_cons, ih hpieces, without_append]
      conv_rhs => rw [List.map_cons, without_of_getLast? hpiece]

end Text

namespace Session

open Reply

variable {limit : Nat} {s s' : Session} {out : List Record}

theorem sourceLines_append (a b : Text) :
    sourceLines (a ++ '\n' :: b) = sourceLines a ++ sourceLines b := by
  rw [sourceLines, List.splitOn_append_cons_self, List.map_append]
  rfl

theorem sourceLines_withReturns {a : Text}
    (h : ∀ piece ∈ a.splitOn '\n', piece.getLast? ≠ some '\r') :
    sourceLines (Text.withReturns a) = sourceLines a := by
  rw [sourceLines, Text.splitOn_withReturns, Text.map_without_returned h]
  rfl

/-! ## Reading -/

theorem readSource_append (limit : Nat) (s : Session) (a b : Text) :
    s.readSource limit (a ++ '\n' :: b) =
      Reply.andThen (s.readSource limit a) fun s' => s'.readSource limit b := by
  rw [readSource, sourceLines_append, feed_append]
  rfl

/-- **The records of lines with the echo of each line before its own.** -/
def echoed (lines : List Text) (owns : List (List Record)) : List Record :=
  (List.zipWith (fun line own => Record.echo line :: own) lines owns).flatten

theorem echoLine_eq_ok_iff {line : Text} :
    s.echoLine limit line = .ok (s', out) ↔
      ∃ own, s.readLine limit line = .ok (s', own) ∧ out = .echo line :: own := by
  rw [echoLine, andThen_eq_ok_iff]
  constructor
  · rintro ⟨s₁, echo, own, hecho, hown, rfl⟩
    cases hecho
    exact ⟨own, hown, rfl⟩
  · rintro ⟨own, hown, rfl⟩
    exact ⟨s, [.echo line], own, rfl, hown, rfl⟩

theorem fed_echoLine_iff {lines : List Text} {outs : List (List Record)} :
    Fed (echoLine limit) s lines outs s' ↔
      ∃ owns, Fed (readLine limit) s lines owns s' ∧
        outs = List.zipWith (fun line own => Record.echo line :: own) lines owns := by
  constructor
  · intro h
    induction h with
    | nil s => exact ⟨[], .nil s, rfl⟩
    | cons hline _ ih =>
      obtain ⟨own, hown, rfl⟩ := echoLine_eq_ok_iff.mp hline
      obtain ⟨owns, hfed, rfl⟩ := ih
      exact ⟨own :: owns, .cons hown hfed, rfl⟩
  · rintro ⟨owns, hfed, rfl⟩
    induction hfed with
    | nil s => exact .nil s
    | cons hown _ ih => exact .cons (echoLine_eq_ok_iff.mpr ⟨_, hown, rfl⟩) ih

/-- **Each line is echoed just before its own records.** -/
theorem feed_echoLine_eq_ok_iff {lines : List Text} :
    feed (echoLine limit) s lines = .ok (s', out) ↔
      ∃ owns, Fed (readLine limit) s lines owns s' ∧ out = echoed lines owns := by
  rw [feed_eq_ok_iff]
  constructor
  · rintro ⟨outs, hfed, rfl⟩
    obtain ⟨owns, hown, rfl⟩ := fed_echoLine_iff.mp hfed
    exact ⟨owns, hown, rfl⟩
  · rintro ⟨owns, hown, rfl⟩
    exact ⟨_, fed_echoLine_iff.mpr ⟨owns, hown, rfl⟩, rfl⟩

theorem echoes_of_feed {lines : List Text} (h : feed (echoLine limit) s lines = .ok (s', out)) :
    out.filter Record.isEcho = lines.map Record.echo := by
  induction lines generalizing s out with
  | nil =>
    cases h
    rfl
  | cons line lines ih =>
    obtain ⟨s₁, out₁, out₂, hline, hlines, rfl⟩ := andThen_eq_ok_iff.mp h
    obtain ⟨own, hown, rfl⟩ := echoLine_eq_ok_iff.mp hline
    have hnone : own.filter Record.isEcho = [] :=
      List.filter_eq_nil_iff.mpr fun record hrecord => by
        rw [isEcho_of_readLine hown record hrecord]
        exact Bool.false_ne_true
    rw [List.filter_append, List.filter_cons_of_pos rfl, hnone, ih hlines]
    rfl

/-- **A source text is read piece by piece.** Two texts with a newline between them are read one
after the other. But for the echoes, a text does what its pieces between newlines do when they are
read as lines, each without one carriage return at its end. Each line is echoed just before its own
records, and there is one echo more than there are newlines. And if no piece ends in a carriage
return, one may be put before each newline: the records and the session stay the same. -/
theorem source_read_piecewise (limit : Nat) (s : Session) (a : Text) :
    (∀ b, s.readSource limit (a ++ '\n' :: b) =
      Reply.andThen (s.readSource limit a) fun s' => s'.readSource limit b) ∧
    (s.readSource limit a).unechoed =
      s.readLines limit ((a.splitOn '\n').map (Text.without ['\r'])) ∧
    (∀ s' out, s.readSource limit a = .ok (s', out) ↔
      ∃ owns, Fed (readLine limit) s ((a.splitOn '\n').map (Text.without ['\r'])) owns s' ∧
        out = echoed ((a.splitOn '\n').map (Text.without ['\r'])) owns) ∧
    (∀ s' out, s.readSource limit a = .ok (s', out) →
      out.countP Record.isEcho = a.count '\n' + 1) ∧
    ((∀ piece ∈ a.splitOn '\n', piece.getLast? ≠ some '\r') →
      s.readSource limit (Text.withReturns a) = s.readSource limit a) := by
  refine ⟨readSource_append limit s a, unechoed_readSource limit s a,
    fun s' out => feed_echoLine_eq_ok_iff, fun s' out h => ?_, fun h => ?_⟩
  · rw [List.countP_eq_length_filter, echoes_of_feed h, List.length_map, sourceLines,
      List.length_map, Text.length_splitOn]
  · rw [readSource, sourceLines_withReturns h]
    rfl

/-- A source text with an empty piece, one that starts with a carriage return, and nothing behind its
last newline. -/
def looseSource : Text := "def f\n\rc = Computer.new(1)\n\nc.execute()\nend\nf\n".toList

/-- With carriage returns the text is read alike, and a further text goes on from there. -/
theorem source_read_piecewise_loose : ∃ s out,
    fresh.readSource 0 looseSource = .ok (s, out) ∧ out.countP Record.isEcho = 7 ∧
      fresh.readLines 0 ["def f".toList, "\rc = Computer.new(1)".toList, [], "c.execute()".toList,
        "end".toList, "f".toList, []] = .ok (s, [.failure (Fault.noInstruction 0).message]) ∧
      fresh.readSource 0 (looseSource ++ '\n' :: "f".toList) =
        .ok (s, out ++ [.echo "f".toList, .failure (Fault.noInstruction 0).message]) ∧
      (∀ piece ∈ looseSource.splitOn '\n', piece.getLast? ≠ some '\r') ∧
      fresh.readSource 0 (Text.withReturns looseSource) = .ok (s, out) := by
  have hread : ∃ s out, fresh.readSource 0 looseSource = .ok (s, out) ∧
      unechoed (.ok (s, out)) = .ok (s, [.failure (Fault.noInstruction 0).message]) ∧
      s.readSource 0 "f".toList =
        .ok (s, [.echo "f".toList, .failure (Fault.noInstruction 0).message]) :=
    ⟨_, _, rfl, rfl, rfl⟩
  obtain ⟨s, out, hsource, hunechoed, hcall⟩ := hread
  have hpieces : ∀ piece ∈ looseSource.splitOn '\n', piece.getLast? ≠ some '\r' := by decide
  obtain ⟨happend, hlines, -, hcount, hreturns⟩ := source_read_piecewise 0 fresh looseSource
  rw [hsource] at happend hlines hreturns
  refine ⟨s, out, hsource, hcount s out hsource, hlines.symm.trans hunechoed, ?_, hpieces,
    hreturns hpieces⟩
  rw [happend, andThen_ok, hcall]
  rfl

end Session

end CellMachine
