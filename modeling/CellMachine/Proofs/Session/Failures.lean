import CellMachine.Proofs.Fault.Message
import CellMachine.Proofs.Session.Requests
import CellMachine.Proofs.Session.Sound

/-! # What a session tells of failures

When an operation on the computer fails, all that a session passes on is a text. Nothing is lost by
that: the text is the message of a fault, and of one fault only, so the kind of the fault and all its
details can be told from the text.

* `Record.TellsFault`: records that are the message of a fault if they tell of a failure.
* `tellsFault_of_effect`, `tellsFault_of_carried`: what an action emits, and what requests emit that
  are carried out.
* `ensures_tellsFault`: what any input of a session emits.
* `failure_tells_one_fault`: messages are told apart, and so are the failures that sessions tell of. -/

namespace CellMachine

open Reply

/-- **Records that tell a fault** if they tell of a failure. -/
def Record.TellsFault (record : Record) : Prop :=
  ∀ t, record = .failure t → ∃ fault : Fault, fault.message = t

section Emitted

variable {limit : Nat} {vs : Variables} {out : List Record}

theorem tellsFault_failure (fault : Fault) : (Record.failure fault.message).TellsFault := by
  rintro t ⟨⟩
  exact ⟨fault, rfl⟩

theorem tellsFault_printed (values : List Word) :
    ∀ record ∈ values.map Record.printed, record.TellsFault := by
  intro record hrecord
  obtain ⟨value, -, rfl⟩ := List.mem_map.mp hrecord
  exact nofun

theorem tellsFault_of_effect {c c' : Computer} {action : Action}
    (h : action.Effect limit vs c c' out) : ∀ record ∈ out, record.TellsFault := by
  cases h with
  | unnamed | edited => simp
  | refused => simpa using tellsFault_failure _
  | ran => exact tellsFault_printed _
  | broke =>
    intro record hrecord
    rcases List.mem_append.mp hrecord with hprinted | hfailure
    · exact tellsFault_printed _ record hprinted
    · rw [List.mem_singleton.mp hfailure]
      exact tellsFault_failure _

theorem tellsFault_of_carried {bench bench' : Option Bench} {requests : List Request}
    {outs : List (List Record)} (h : Carried limit vs bench requests outs bench') :
    ∀ record ∈ outs.flatten, record.TellsFault := by
  induction h with
  | nil => simp
  | build _ _ ih => simpa using ih
  | act effect _ ih =>
    intro record hrecord
    rw [List.flatten_cons] at hrecord
    rcases List.mem_append.mp hrecord with hfirst | hrest
    · exact tellsFault_of_effect effect record hfirst
    · exact ih record hrest

end Emitted

namespace Session

theorem ensures_tellsFault_readLine (limit : Nat) (s : Session) (line : Text) :
    Ensures (fun _ => True) Record.TellsFault (s.readLine limit line) := by
  rcases readLine_cases limit s line with ⟨-, hend⟩ | ⟨-, r, -, hcall⟩ | ⟨s', hsilent, -⟩
  · rw [hend]
    exact ensures_ok trivial (List.forall_mem_singleton.mpr nofun)
  · rw [hcall]
    intro s' out h
    obtain ⟨bench, hreplay, -⟩ := andThen_silent_eq_ok_iff.mp h
    obtain ⟨outs, hcarried, rfl⟩ := replay_eq_ok_iff_carried.mp hreplay
    exact ⟨trivial, tellsFault_of_carried hcarried⟩
  · rw [hsilent]
    exact ensures_silent trivial

/-- **Whatever a session reads, the failures it tells of are told by their messages.** -/
theorem ensures_tellsFault (limit : Nat) (s : Session) (input : Input) :
    Ensures (fun _ => True) Record.TellsFault (input.reply limit s) := by
  cases input with
  | line text => exact ensures_tellsFault_readLine limit s text
  | source text =>
    refine ensures_feed (fun s line _ => ?_) (sourceLines text) trivial
    have hecho : Ensures (fun _ => True) Record.TellsFault (.ok (s, [.echo line])) :=
      ensures_ok trivial (List.forall_mem_singleton.mpr nofun)
    exact hecho.andThen fun s' _ => ensures_tellsFault_readLine limit s' line
  | reset => exact ensures_silent trivial

/-- **A failure tells one fault.** No two faults have the same message, whatever their kinds and their
details are. So in all that a session emits, whatever it has read, the text of a failure is the
message of exactly one fault. -/
theorem failure_tells_one_fault :
    Function.Injective Fault.message ∧
      ∀ limit inputs s out t, feed (Input.reply limit) fresh inputs = .ok (s, out) →
        .failure t ∈ out → ∃! fault : Fault, fault.message = t := by
  refine ⟨fun f g => Fault.eq_of_message_eq, fun limit inputs s out t h ht => ?_⟩
  obtain ⟨-, hout⟩ := ensures_feed (fun s input _ => ensures_tellsFault limit s input) inputs
    trivial s out h
  obtain ⟨fault, rfl⟩ := hout _ ht t rfl
  exact ⟨fault, rfl, fun f hf => Fault.eq_of_message_eq hf⟩

/-- A routine that asks for an address with a sign, and is called. -/
def signedInputs : List Input :=
  [.source "def f\nc = Computer.new(1)\nc.set_address(-2)\nend".toList, .line " f() ".toList]

/-- The sign and the two numbers of the message are those of one fault. -/
theorem failure_tells_one_fault_signed :
    ∃ s out, feed (Input.reply 0) fresh signedInputs = .ok (s, out) ∧
      .failure "program counter -2 is out of bounds (size 1)".toList ∈ out ∧
      ∃! fault : Fault,
        fault.message = "program counter -2 is out of bounds (size 1)".toList := by
  obtain ⟨s, out, hfeed, hout⟩ : ∃ s out, feed (Input.reply 0) fresh signedInputs = .ok (s, out) ∧
      .failure "program counter -2 is out of bounds (size 1)".toList ∈ out :=
    ⟨_, _, rfl, by decide +kernel⟩
  exact ⟨s, out, hfeed, hout, failure_tells_one_fault.2 0 signedInputs s out _ hfeed hout⟩

end Session

end CellMachine
