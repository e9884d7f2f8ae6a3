import CellMachine.Proofs.Computer.Reachable
import CellMachine.Proofs.Fault.Message
import CellMachine.Proofs.Reply
import CellMachine.Proofs.Text.Identifier
import CellMachine.Script.Replay

/-! # Replaying keeps the bench sound

A bench is *sound* when its name is an identifier and its computer is reachable. Whatever the lines
of a routine are, replaying them keeps the bench sound, and the records that are emitted are *proper*:
none reports one of the two faults that no run of a reachable computer has.

* `Record.Proper`, `Bench.Sound`: proper records and sound benches.
* `ensures_action`, `ensures_link`: what an action and a link of a chain ensure.
* `ensures_construct`, `ensures_chain`, `ensures_replayLine`: what a line ensures. -/

namespace CellMachine

open Reply

/-! ## Records of computers -/

/-- **Proper records.** Not the report of a bare value that was met by a run, nor that of a call
without a target. -/
def Record.Proper (r : Record) : Prop :=
  ∀ pc, r ≠ .failure (Fault.notAnInstruction pc).message ∧
    r ≠ .failure (Fault.missingTarget pc).message

theorem proper_failure {fault : Fault} (h₁ : ∀ pc, fault ≠ .notAnInstruction pc)
    (h₂ : ∀ pc, fault ≠ .missingTarget pc) : (Record.failure fault.message).Proper := by
  intro pc
  constructor
  · intro h
    exact h₁ pc (Fault.eq_of_message_eq (Record.failure.inj h))
  · intro h
    exact h₂ pc (Fault.eq_of_message_eq (Record.failure.inj h))

theorem proper_printed (w : Word) : (Record.printed w).Proper := fun _ => ⟨nofun, nofun⟩

theorem proper_echo (line : Text) : (Record.echo line).Proper := fun _ => ⟨nofun, nofun⟩

theorem proper_ended : Record.ended.Proper := fun _ => ⟨nofun, nofun⟩

namespace Computer

variable {c : Computer}

theorem ensures_settle {r : Except Fault Computer} (hc : (c.attempt r).Reachable)
    (hfault : ∀ fault, r = .error fault → (Record.failure fault.message).Proper) :
    Ensures Reachable Record.Proper (settle c r) := by
  cases r with
  | ok c' => exact ensures_silent hc
  | error fault => exact ensures_ok hc (by simpa using hfault fault rfl)

theorem ensures_setAddress (h : c.Reachable) (address : Word) :
    Ensures Reachable Record.Proper (settle c (c.setAddress address)) := by
  refine ensures_settle (h.leads (.setAddress address) rfl) fun fault hfault => ?_
  rw [setAddress_eq_error hfault]
  exact proper_failure nofun nofun

theorem ensures_insert (h : c.Reachable) (mnemonic : Text) (argument : Option Word) :
    Ensures Reachable Record.Proper (settle c (c.insert mnemonic argument)) := by
  refine ensures_settle (h.leads (.insert mnemonic argument) rfl) fun fault hfault => ?_
  rcases insert_eq_error hfault with rfl | ⟨op, rfl⟩ | rfl
  · exact proper_failure nofun nofun
  · exact proper_failure nofun nofun
  · exact proper_failure nofun nofun

theorem ensures_execute (h : c.Reachable) (limit : Nat) :
    Ensures Reachable Record.Proper (c.execute limit).reply := by
  have hprinted : ∀ record ∈ (c.execute limit).printed.toList.map Record.printed,
      record.Proper := by
    intro record hrecord
    obtain ⟨w, -, rfl⟩ := List.mem_map.mp hrecord
    exact proper_printed w
  have hleads : (c.execute limit).ending ≠ .unfinished → (c.execute limit).computer.Reachable :=
    fun hend => h.leads .execute ⟨limit, hend, rfl⟩
  unfold Outcome.reply
  cases hend : (c.execute limit).ending with
  | finished payload => exact ensures_ok (hleads (by rw [hend]; nofun)) hprinted
  | failed fault =>
    refine ensures_ok (hleads (by rw [hend]; nofun)) fun record hrecord => ?_
    obtain ⟨h₁, h₂, -⟩ := h.sound.fault_of_execute hend
    rcases List.mem_append.mp hrecord with hrecord | hrecord
    · exact hprinted record hrecord
    · rw [List.mem_singleton.mp hrecord]
      exact proper_failure h₁ h₂
  | unfinished => exact ensures_error _

end Computer

theorem ensures_action {c : Computer} (h : c.Reachable) (limit : Nat) (vs : Variables)
    (action : Action) :
    Ensures Computer.Reachable Record.Proper (action.reply limit vs c) := by
  rcases action with operand | ⟨mnemonic, _ | operand⟩ | _
  · rw [Action.reply]
    split
    · exact Computer.ensures_setAddress h _
    · exact ensures_silent h
  · exact Computer.ensures_insert h mnemonic none
  · rw [Action.reply]
    split
    · exact Computer.ensures_insert h mnemonic _
    · exact ensures_silent h
  · exact Computer.ensures_execute h limit

theorem ensures_link {c : Computer} (h : c.Reachable) (limit : Nat) (vs : Variables)
    (link : Text) : Ensures Computer.Reachable Record.Proper (linkReply limit vs c link) := by
  unfold linkReply
  split
  · exact ensures_action h limit vs _
  · exact ensures_silent h

/-! ## Lines of a routine -/

/-- **Sound benches.** -/
def Bench.Sound (b : Bench) : Prop := Text.Identifier b.name ∧ b.computer.Reachable

theorem identifier_of_construction? {line name : Text} {size : Nat}
    (h : construction? line = some (name, size)) : Text.Identifier name := by
  unfold construction? at h
  obtain ⟨⟨name', right⟩, hbinding, h⟩ := Option.bind_eq_some_iff.mp h
  obtain ⟨inner, -, h⟩ := Option.bind_eq_some_iff.mp h
  obtain ⟨n, -, h⟩ := Option.map_eq_some_iff.mp h
  cases h
  exact Text.identifier_of_binding? hbinding

theorem ensures_construct {bench : Option Bench} (h : ∀ b ∈ bench, b.Sound) {name : Text}
    (hname : Text.Identifier name) (size : Nat) :
    Ensures (fun bench => ∀ b ∈ bench, Bench.Sound b) Record.Proper
      (construct bench name size) := by
  intro bench' out hreply
  obtain ⟨rfl, ⟨-, rfl⟩ | ⟨w, c, -, hnew, rfl⟩⟩ := construct_cases hreply
  · exact ⟨h, by simp⟩
  · refine ⟨fun b hb => ?_, by simp⟩
    obtain rfl := Option.some.inj hb
    exact ⟨hname, .ofSize hnew⟩

theorem ensures_chain (limit : Nat) (vs : Variables) {bench : Option Bench}
    (h : ∀ b ∈ bench, b.Sound) (line : Text) :
    Ensures (fun bench => ∀ b ∈ bench, Bench.Sound b) Record.Proper
      (chainReply limit vs bench line) := by
  unfold chainReply
  split
  · exact ensures_silent nofun
  · rename_i b
    obtain ⟨hname, hc⟩ := h b rfl
    split
    · exact ensures_silent h
    · refine (ensures_feed (fun c link hc => ensures_link hc limit vs link) _ hc).andThen ?_
      intro c hc
      refine ensures_silent fun b' hb' => ?_
      cases hb'
      exact ⟨hname, hc⟩

theorem ensures_replayLine (limit : Nat) (vs : Variables) (bench : Option Bench) (line : Text)
    (h : ∀ b ∈ bench, b.Sound) :
    Ensures (fun bench => ∀ b ∈ bench, Bench.Sound b) Record.Proper
      (replayLine limit vs bench line) := by
  unfold replayLine
  split
  · rename_i name size hline
    exact ensures_construct h (identifier_of_construction? hline) size
  · exact ensures_chain limit vs h line

end CellMachine
