import CellMachine.Proofs.Computer.Operations
import CellMachine.Proofs.Computer.Trace
import CellMachine.Proofs.Fault.Message
import CellMachine.Proofs.Reply
import CellMachine.Proofs.Text.Identifier
import CellMachine.Script.Replay

/-! # What is reported fits on a line

Records are written one to a line, and echoes are told from all else by the mark they start with.
This takes that no record holds a newline and that nothing but an echo starts with the mark. Numbers
and the wording of faults leave no doubt, but for the one fault that quotes its script: the mnemonic
of an insertion. The form of an insertion admits letters only there.

* `Text.isMarked`, `Record.Framed`: texts that start like an echo, and records that are shown on one
  line and marked exactly when they are echoes.
* `Fault.Lettered`, `framed_failure`: faults that quote letters only are framed when reported.
* `lettered_of_ofText?`, `lettered_of_insert`, `lettered_of_execute`: insertions that are spelt out,
  and the faults of insertions and of runs.
* `framed_action`, `framed_replayLine`, `framed_replay`: what is emitted by an action, by a line of a
  routine and by a whole replay. -/

namespace CellMachine

open Reply

/-! ## Numbers and marks -/

namespace Text

/-- Whether a text starts with the mark of an echo. -/
def isMarked (t : Text) : Bool := "> ".toList.isPrefixOf t

theorem isMarked_of_head? {t : Text} {c : Char} (h : t.head? = some c) (hc : c ≠ '>') :
    isMarked t = false := by
  cases t with
  | nil => cases h
  | cons d t =>
    obtain rfl := Option.some.inj h
    have hne : ('>' == d) = false := beq_false_of_ne (Ne.symm hc)
    show ('>' == d && [' '].isPrefixOf t) = false
    rw [hne, Bool.false_and]

theorem newline_notMem_ofNat (n : Nat) : '\n' ∉ ofNat n := by
  intro h
  exact absurd (isDigit_of_mem_ofNat h) (by decide)

theorem newline_notMem_ofInt (i : Int) : '\n' ∉ ofInt i := by
  cases i with
  | ofNat n => exact newline_notMem_ofNat n
  | negSucc n => simp [ofInt, newline_notMem_ofNat]

theorem isMarked_ofInt (i : Int) : isMarked (ofInt i) = false := by
  cases i with
  | ofNat n =>
    obtain ⟨c, t, hn⟩ := List.exists_cons_of_ne_nil (ofNat_ne_nil n)
    have hdigit : c.isDigit := isDigit_of_mem_ofNat (n := n) (by simp [hn])
    rw [ofInt, hn]
    refine isMarked_of_head? rfl ?_
    rintro rfl
    exact absurd hdigit (by decide)
  | negSucc n => exact isMarked_of_head? rfl (by decide)

end Text

/-! ## Faults and records -/

/-- **Faults that quote letters only.** What is quoted is a mnemonic that is unknown. -/
def Fault.Lettered : Fault → Prop
  | unknownMnemonic mnemonic => ∀ c ∈ mnemonic, Text.Letter c
  | _ => True

/-- **Framed records.** They are shown on one line, which starts like an echo exactly when they are
one. -/
structure Record.Framed (r : Record) : Prop where
  oneLine : '\n' ∉ r.text
  isMarked_text : Text.isMarked r.text = r.isEcho

namespace Fault

theorem initial_ne_mark (f : Fault) : f.initial ≠ '>' := by
  cases f with
  | missingArgument op => cases op <;> decide
  | _ => simp [initial]

theorem newline_notMem_message {f : Fault} (h : f.Lettered) : '\n' ∉ f.message := by
  have hnat := Text.newline_notMem_ofNat
  have hword : ∀ w : Word, '\n' ∉ w.text := fun w => Text.newline_notMem_ofInt w.toInt
  -- the equations of `message` are slow to come by, since each compares long literals
  delta message
  cases f with
  | missingArgument op =>
    have hmnemonic : '\n' ∉ op.mnemonic := by cases op <;> decide
    dsimp only
    simp [hmnemonic]
  | unknownMnemonic mnemonic =>
    have hquoted : '\n' ∉ mnemonic := fun hmem => absurd (h '\n' hmem) (by decide)
    dsimp only
    simp [hquoted]
  | _ =>
    dsimp only
    simp [hnat, hword]

end Fault

namespace Record

theorem framed_printed (w : Word) : (printed w).Framed :=
  ⟨Text.newline_notMem_ofInt w.toInt, Text.isMarked_ofInt w.toInt⟩

theorem framed_failure {fault : Fault} (h : fault.Lettered) : (failure fault.message).Framed :=
  ⟨Fault.newline_notMem_message h, Text.isMarked_of_head? fault.head?_message fault.initial_ne_mark⟩

theorem framed_echo {line : Text} (h : '\n' ∉ line) : (echo line).Framed := by
  have htext : (echo line).text = '>' :: ' ' :: line := rfl
  exact ⟨by simp [htext, h], by rw [htext]; rfl⟩

theorem framed_ended : ended.Framed := ⟨by decide, by decide⟩

end Record

/-- **Framed replies.** All records that they emit are framed. -/
abbrev Reply.Framed {σ : Type} (r : Reply σ) : Prop := Ensures (fun _ => True) Record.Framed r

/-! ## Runs -/

namespace Config

variable {k : Config} {o : Outcome} {fault : Fault}

theorem lettered_of_fail {cause : Fault} (h : k.fail cause = .halt o)
    (hfault : o.ending = .failed fault) (hcause : cause.Lettered) : fault.Lettered := by
  cases h
  cases hfault
  exact hcause

theorem lettered_of_perform {op : Opcode} {argument : Option Word}
    (h : k.perform op argument = .halt o) (hfault : o.ending = .failed fault) :
    fault.Lettered := by
  rcases k with ⟨⟨store, pc⟩, payload, printed⟩
  cases op with
  | mult =>
    simp only [perform, mult] at h
    split at h
    · cases h
    · exact lettered_of_fail h hfault trivial
  | call =>
    simp only [perform, call] at h
    split at h
    · exact lettered_of_fail h hfault trivial
    · split at h
      · cases h
      · exact lettered_of_fail h hfault trivial
  | ret =>
    simp only [perform, ret] at h
    split at h
    · exact lettered_of_fail h hfault trivial
    · split at h
      · cases h
      · exact lettered_of_fail h hfault trivial
  | stop =>
    cases h
    cases hfault
  | print =>
    simp only [perform, print] at h
    split at h
    · exact lettered_of_fail h hfault trivial
    · cases h
  | push =>
    simp only [perform, push] at h
    split at h
    · exact lettered_of_fail h hfault trivial
    · cases h

theorem lettered_of_cycle (h : k.cycle = .halt o) (hfault : o.ending = .failed fault) :
    fault.Lettered := by
  unfold cycle at h
  split at h
  · split at h
    · cases h
    · exact lettered_of_fail h hfault trivial
    · exact lettered_of_perform h hfault
  · -- past the last slot the run is over, and has not failed
    cases h
    cases hfault

end Config

namespace Computer

variable {c : Computer} {fault : Fault}

theorem lettered_of_execute {limit : Nat} (h : (c.execute limit).ending = .failed fault) :
    fault.Lettered := by
  unfold execute at h
  split at h
  · rcases Config.run_cases limit c.start with ⟨n, -, k, -, hhalt⟩ | ⟨k, -, hcut⟩
    · exact Config.lettered_of_cycle hhalt h
    · rw [hcut] at h
      cases h
  · cases h
    trivial

theorem lettered_of_insert {mnemonic : Text} {argument : Option Word}
    (hmnemonic : ∀ c ∈ mnemonic, Text.Letter c) (h : c.insert mnemonic argument = .error fault) :
    fault.Lettered := by
  rcases insert_eq_error h with rfl | ⟨op, rfl⟩ | rfl
  · exact hmnemonic
  · trivial
  · trivial

end Computer

/-! ## Actions -/

/-- **Actions that name letters only.** -/
def Action.Lettered : Action → Prop
  | insert mnemonic _ => ∀ c ∈ mnemonic, Text.Letter c
  | setAddress _ | execute => True

/-- **An insertion that is spelt out has letters only in its mnemonic.** -/
theorem Action.lettered_of_ofText? {t : Text} {action : Action} (h : ofText? t = some action) :
    action.Lettered := by
  simp only [ofText?, Option.orElse_eq_orElse, Option.orElse_eq_or, Option.or_eq_some_iff] at h
  rcases h with h | ⟨-, h | ⟨-, h⟩⟩
  · obtain ⟨inner, -, h⟩ := Option.bind_eq_some_iff.mp h
    dsimp only at h
    split at h <;> cases h
    trivial
  · obtain ⟨inner, -, h⟩ := Option.bind_eq_some_iff.mp h
    obtain ⟨quoted, -, h⟩ := Option.bind_eq_some_iff.mp h
    dsimp only at h
    split at h
    · cases h
    · obtain ⟨rest, -, h⟩ := Option.bind_eq_some_iff.mp h
      obtain ⟨operand, -, rfl⟩ := Option.map_eq_some_iff.mp h
      have hletters := List.all_eq_true.mp (@List.all_takeWhile _ Text.isNameStart quoted)
      exact fun c hc => Text.isNameStart_iff.mp (hletters c hc)
  · obtain ⟨inner, -, h⟩ := Option.bind_eq_some_iff.mp h
    split at h <;> cases h
    trivial

section Actions

variable {c : Computer} (limit : Nat) (vs : Variables)

theorem framed_settle {r : Except Fault Computer} (h : ∀ fault, r = .error fault → fault.Lettered) :
    (settle c r).Framed := by
  cases r with
  | ok c' => exact ensures_silent trivial
  | error fault =>
    exact ensures_ok trivial (by simpa using Record.framed_failure (h fault rfl))

theorem framed_execute : (c.execute limit).reply.Framed := by
  have hprinted : ∀ record ∈ (c.execute limit).printed.toList.map Record.printed,
      record.Framed := by
    intro record hrecord
    obtain ⟨w, -, rfl⟩ := List.mem_map.mp hrecord
    exact Record.framed_printed w
  unfold Outcome.reply
  cases hending : (c.execute limit).ending with
  | finished payload => exact ensures_ok trivial hprinted
  | failed fault =>
    refine ensures_ok trivial fun record hrecord => ?_
    rcases List.mem_append.mp hrecord with hrecord | hrecord
    · exact hprinted record hrecord
    · rw [List.mem_singleton.mp hrecord]
      exact Record.framed_failure (Computer.lettered_of_execute hending)
  | unfinished => exact ensures_error _

theorem framed_action {action : Action} (h : action.Lettered) :
    (action.reply limit vs c).Framed := by
  rcases action with operand | ⟨mnemonic, _ | operand⟩ | _
  · rw [Action.reply]
    split
    · refine framed_settle fun fault hfault => ?_
      rw [Computer.setAddress_eq_error hfault]
      trivial
    · exact ensures_silent trivial
  · exact framed_settle fun fault hfault => Computer.lettered_of_insert h hfault
  · rw [Action.reply]
    split
    · exact framed_settle fun fault hfault => Computer.lettered_of_insert h hfault
    · exact ensures_silent trivial
  · exact framed_execute limit

theorem framed_link (link : Text) : (linkReply limit vs c link).Framed := by
  unfold linkReply
  split
  · rename_i action haction
    exact framed_action limit vs (Action.lettered_of_ofText? haction)
  · exact ensures_silent trivial

/-! ## Lines of a routine -/

theorem framed_chain (bench : Option Bench) (line : Text) :
    (chainReply limit vs bench line).Framed := by
  unfold chainReply
  split
  · exact ensures_silent trivial
  · split
    · exact ensures_silent trivial
    · refine (ensures_feed (fun c link _ => framed_link limit vs link) _ trivial).andThen ?_
      exact fun c _ => ensures_silent trivial

theorem framed_replayLine (bench : Option Bench) (line : Text) :
    (replayLine limit vs bench line).Framed := by
  unfold replayLine
  split
  · intro bench' out h
    rw [(construct_cases h).1]
    exact ⟨trivial, by simp⟩
  · exact framed_chain limit vs bench line

/-- **Whatever a replay reports fits on a line.** -/
theorem framed_replay (bench : Option Bench) (lines : List Text) :
    (replay limit vs bench lines).Framed :=
  ensures_feed (fun bench line _ => framed_replayLine limit vs bench line) lines trivial

end Actions

end CellMachine
