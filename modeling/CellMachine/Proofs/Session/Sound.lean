import CellMachine.Proofs.Script.Replay
import CellMachine.Session

/-! # Sound sessions

A session is *sound* when its variables have identifiers for names and no negative values, its
routine has an identifier for a name and a body of lines that capture lets through, and its bench is
sound. Whatever lines, texts and resets a fresh session gets to read, it stays sound as long as it
answers, and it never reports one of the two faults that no reachable computer has.

* `Line.Captured`, `Session.Sound`: the lines that capture lets through, and the invariant.
* `Session.Input`, `Input.reply`: what a session gets to read, and the reply to it.
* `ensures_readLine`, `ensures_readSource`: every line and every source text keep the invariant.
* `sound_of_feed`: what holds of every session that comes from a fresh one. -/

namespace CellMachine

open Reply

/-! ## Lines of a session -/

/-- The lines that capture lets through: neither blank, nor a comment, nor the end of the session
or of the definition. -/
def Line.Captured (line : Text) : Prop :=
  Text.trim line ≠ [] ∧ (Text.trim line).head? ≠ some '#' ∧
    Text.trim line ≠ "exit()".toList ∧ Text.trim line ≠ "end".toList

/-- **Sound sessions.** -/
structure Session.Sound (s : Session) : Prop where
  vars : ∀ v ∈ s.vars, Text.Identifier v.1 ∧ 0 ≤ v.2.toInt ∧
    v.2.toInt ≤ Int64.maxValue.toInt
  routine : ∀ r ∈ s.routine, Text.Identifier r.name ∧ ∀ line ∈ r.body, Line.Captured line
  bench : ∀ b ∈ s.bench, b.Sound

namespace Line

open Text (Identifier)

theorem identifier_of_assignment? {t name : Text} {value : Nat}
    (h : assignment? t = some (name, value)) : Identifier name := by
  unfold assignment? at h
  obtain ⟨⟨name', right⟩, hbinding, h⟩ := Option.bind_eq_some_iff.mp h
  obtain ⟨n, -, h⟩ := Option.map_eq_some_iff.mp h
  obtain ⟨rfl, -⟩ := Prod.mk.inj h
  exact Text.identifier_of_binding? hbinding

theorem identifier_of_opening? {t name : Text} (h : opening? t = some name) :
    Identifier name := by
  unfold opening? at h
  obtain ⟨rest, -, h⟩ := Option.bind_eq_some_iff.mp h
  dsimp only at h
  split at h
  · rename_i hshape
    obtain rfl := Option.some.inj h
    rw [Bool.and_eq_true] at hshape
    exact Text.isName_iff.mp hshape.2
  · cases h

theorem statement_cases (routine : Option Routine) (t : Text) :
    (∃ name w, statement routine t = .assignment name w ∧ Identifier name ∧ 0 ≤ w.toInt) ∨
      (∃ name, statement routine t = .opening name ∧ Identifier name) ∨
      statement routine t = .call ∨ statement routine t = .unrecognized := by
  unfold statement
  split
  · rename_i name value hbound
    cases hw : Word.ofInt? value with
    | none => exact Or.inr (Or.inr (Or.inr rfl))
    | some w =>
      have hvalue : w.toInt = value := Word.toInt_of_ofInt? hw
      exact Or.inl ⟨name, w, rfl, identifier_of_assignment? hbound, by omega⟩
  · split
    · rename_i name hopening
      exact Or.inr (Or.inl ⟨name, rfl, identifier_of_opening? hopening⟩)
    · split
      · exact Or.inr (Or.inr (Or.inl rfl))
      · exact Or.inr (Or.inr (Or.inr rfl))

theorem classify_cases (routine : Option Routine) (line : Text) :
    classify routine line = .exit ∨ classify routine line = .ignored ∨
      classify routine line = .closing ∨ (classify routine line = .body ∧ Captured line) ∨
      classify routine line = statement routine (Text.trim line) := by
  unfold classify
  dsimp only
  split
  · exact Or.inl rfl
  rename_i hexit
  split
  · exact Or.inr (Or.inl rfl)
  rename_i hmeaning
  have hcomment : (Text.trim line).head? ≠ some '#' := by
    intro hhead
    exact hmeaning (Or.inr (by rw [isComment, hhead]; rfl))
  split
  · split
    · exact Or.inr (Or.inr (Or.inl rfl))
    · rename_i hend
      exact Or.inr (Or.inr (Or.inr (Or.inl
        ⟨rfl, fun hnil => hmeaning (Or.inl hnil), hcomment, hexit, hend⟩)))
  · exact Or.inr (Or.inr (Or.inr (Or.inr rfl)))

end Line

namespace Session

variable {s : Session}

theorem sound_fresh : fresh.Sound := ⟨nofun, nofun, nofun⟩

/-! ## What lines do to the parts of a session -/

theorem Sound.assign (h : s.Sound) {name : Text} {w : Word} (hname : Text.Identifier name)
    (hw : 0 ≤ w.toInt) : Sound { s with vars := s.vars.assign name w } := by
  refine { h with vars := fun v hv => ?_ }
  rcases List.mem_cons.mp hv with rfl | hold
  · exact ⟨hname, hw, Word.toInt_le_maxValue w⟩
  · exact h.vars v (List.mem_filter.mp hold).1

theorem Sound.opened (h : s.Sound) {name : Text} (hname : Text.Identifier name) :
    Sound { s with routine := some (Routine.opened name) } := by
  refine { h with routine := fun r hr => ?_ }
  obtain rfl := Option.some.inj hr
  exact ⟨hname, nofun⟩

theorem Sound.capture (h : s.Sound) {line : Text} (hline : Line.Captured line) :
    Sound { s with routine := s.routine.map fun r => r.capture line } := by
  refine { h with routine := fun r hr => ?_ }
  obtain ⟨r', hr', rfl⟩ := Option.map_eq_some_iff.mp hr
  obtain ⟨hname, hbody⟩ := h.routine r' hr'
  refine ⟨hname, fun line' hline' => ?_⟩
  rcases List.mem_append.mp hline' with hold | hnew
  · exact hbody line' hold
  · rw [List.mem_singleton.mp hnew]
    exact hline

theorem Sound.close (h : s.Sound) : Sound { s with routine := s.routine.map Routine.close } := by
  refine { h with routine := fun r hr => ?_ }
  obtain ⟨r', hr', rfl⟩ := Option.map_eq_some_iff.mp hr
  exact h.routine r' hr'

theorem ensures_call (limit : Nat) (h : s.Sound) : Ensures Sound Record.Proper (s.call limit) := by
  unfold call
  split
  · exact ensures_silent h
  · refine (ensures_feed (fun bench line => ensures_replayLine limit s.vars bench line) _
      h.bench).andThen ?_
    intro bench hbench
    exact ensures_silent { h with bench := hbench }

/-! ## Reading -/

theorem ensures_readLine (limit : Nat) (s : Session) (line : Text) (h : s.Sound) :
    Ensures Sound Record.Proper (s.readLine limit line) := by
  unfold readLine
  rcases Line.classify_cases s.routine line with hm | hm | hm | ⟨hm, hline⟩ | hm
  · rw [hm]
    exact ensures_ok sound_fresh (by simpa using proper_ended)
  · rw [hm]
    exact ensures_silent h
  · rw [hm]
    exact ensures_silent h.close
  · rw [hm]
    exact ensures_silent (h.capture hline)
  · rw [hm]
    rcases Line.statement_cases s.routine (Text.trim line) with
      ⟨name, w, hs, hname, hw⟩ | ⟨name, hs, hname⟩ | hs | hs
    · rw [hs]
      exact ensures_silent (h.assign hname hw)
    · rw [hs]
      exact ensures_silent (h.opened hname)
    · rw [hs]
      exact ensures_call limit h
    · rw [hs]
      exact ensures_silent h

theorem ensures_echoLine (limit : Nat) (s : Session) (line : Text) (h : s.Sound) :
    Ensures Sound Record.Proper (s.echoLine limit line) := by
  have hecho : Ensures Sound Record.Proper (.ok (s, [.echo line])) :=
    ensures_ok h (by simpa using proper_echo line)
  exact hecho.andThen fun s' h' => ensures_readLine limit s' line h'

theorem ensures_readSource (limit : Nat) (s : Session) (source : Text) (h : s.Sound) :
    Ensures Sound Record.Proper (s.readSource limit source) :=
  ensures_feed (ensures_echoLine limit) (sourceLines source) h

/-! ## Sessions that come from a fresh one -/

/-- **What a session gets to read:** a line, a whole source text, or that it starts afresh. -/
inductive Input where
  | line (text : Text)
  | source (text : Text)
  | reset
deriving DecidableEq, Repr

/-- **The reply to an input.** -/
def Input.reply (limit : Nat) (s : Session) : Input → Reply Session
  | line text => s.readLine limit text
  | source text => s.readSource limit text
  | reset => .silent fresh

theorem ensures_input (limit : Nat) (s : Session) (input : Input) (h : s.Sound) :
    Ensures Sound Record.Proper (input.reply limit s) := by
  cases input with
  | line text => exact ensures_readLine limit s text h
  | source text => exact ensures_readSource limit s text h
  | reset => exact ensures_silent sound_fresh

theorem mem_of_value? {name : Text} {w : Word} (hw : s.value? name = some w) :
    (name, w) ∈ s.vars := by
  obtain ⟨before, behind, hvars, -⟩ := List.lookup_eq_some_iff.mp hw
  rw [hvars]
  simp

theorem Sound.identifier_of_value? (h : s.Sound) {name : Text} {w : Word}
    (hw : s.value? name = some w) : Text.Identifier name :=
  (h.vars (name, w) (mem_of_value? hw)).1

theorem resolve_ofText {word : Text} (h : Word.ofText? word = none) :
    (Operand.ofText word).resolve s.vars = s.value? word := by
  rw [Operand.ofText, h]
  rfl

/-- **Every session that comes from a fresh one is sound,** and so is its computer; it has reported
only proper records. No name of a variable denotes a word, so the reading of operands as words
first hides no variable, and a word that is neither a number in range nor an identifier has no
value. -/
theorem sound_of_feed {limit : Nat} {inputs : List Input} {out : List Record}
    (h : feed (Input.reply limit) fresh inputs = .ok (s, out)) :
    s.Sound ∧ (∀ b ∈ s.bench, b.computer.Sound) ∧ (∀ record ∈ out, record.Proper) ∧
      (∀ name w, s.value? name = some w →
        Word.ofText? name = none ∧ (Operand.ofText name).resolve s.vars = some w) ∧
      ∀ word, Word.ofText? word = none → ¬ Text.Identifier word →
        (Operand.ofText word).resolve s.vars = none := by
  obtain ⟨hs, hout⟩ := ensures_feed (ensures_input limit) inputs sound_fresh s out h
  refine ⟨hs, fun b hb => (hs.bench b hb).2.sound, hout, fun name w hw => ?_,
    fun word hword hnot => ?_⟩
  · have hname := Text.ofText?_of_identifier (hs.identifier_of_value? hw)
    exact ⟨hname, by rw [resolve_ofText hname, hw]⟩
  · rw [resolve_ofText hword]
    by_contra hsome
    obtain ⟨w, hw⟩ := Option.ne_none_iff_exists'.mp hsome
    exact hnot (hs.identifier_of_value? hw)

/-- A session starts afresh, defines a routine and calls it: the second instruction does not fit. -/
theorem sound_of_feed_refused_insertion :
    ∃ s out, feed (Input.reply 0) fresh
        [.reset, .line "x = 5".toList,
          .source "def f\nc = Computer.new(1)\nc.insert(\"PUSH\", x).insert(\"RET\")\nend".toList,
          .line "f".toList] = .ok (s, out) ∧
      out.drop 4 = [.failure (Fault.addressOutOfBounds 1 1).message] ∧
      s.vars = [("x".toList, 5)] ∧ s.Sound ∧ (∀ b ∈ s.bench, b.computer.Sound) ∧
      ∀ record ∈ out, record.Proper := by
  refine ⟨⟨[("x".toList, 5)],
      some ⟨"f".toList, ["c = Computer.new(1)".toList,
        "c.insert(\"PUSH\", x).insert(\"RET\")".toList], true⟩,
      some ⟨"c".toList, ⟨⟨1, #[some (.instruction .push (some 5))]⟩, 1⟩⟩⟩,
    [.echo "def f".toList, .echo "c = Computer.new(1)".toList,
      .echo "c.insert(\"PUSH\", x).insert(\"RET\")".toList, .echo "end".toList,
      .failure (Fault.addressOutOfBounds 1 1).message], (fun hfeed => ⟨hfeed, rfl, rfl,
      (sound_of_feed hfeed).1, (sound_of_feed hfeed).2.1, (sound_of_feed hfeed).2.2.1⟩) ?_⟩
  rfl

end Session

end CellMachine
