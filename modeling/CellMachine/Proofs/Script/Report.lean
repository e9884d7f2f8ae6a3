import CellMachine.Proofs.Reply
import CellMachine.Script.Replay
import Mathlib.Algebra.Ring.Int.Defs
import Mathlib.Algebra.Ring.Nat

/-! # What a replay reports, and when it aborts

Everything that a computer has to tell is a *report*, a printed value or the message of a fault; and
a line that is addressed to a computer aborts only when a run of it exceeds its cycles. A line that
constructs a computer emits nothing, and aborts exactly when it is *oversized*: when the size is a
word, but the slots do not fit in memory.

* `Record.isReport`, `Reply.Reports`: reports, and the replies that consist of reports.
* `reports_action`, `reports_link`, `reports_chain`: what an action, a link and a chain reply.
* `Oversized`, `Oversizes`: sizes of which no store can be laid out, and lines that ask for one.
* `replayLine_eq_storeTooLarge_iff`, `replay_eq_storeTooLarge_iff`: when a replay asks for more than
  memory can hold. -/

namespace CellMachine

/-- **Reports:** printed values and messages of faults. -/
def Record.isReport : Record → Bool
  | printed _ | failure _ => true
  | echo _ | ended => false

namespace Reply

variable {σ τ α : Type}

/-- **Replies of computers.** All records are reports, and an abort is for want of cycles. -/
structure Reports (r : Reply σ) : Prop where
  report : ∀ s out, r = .ok (s, out) → ∀ record ∈ out, record.isReport
  abort : ∀ cause, r = .error cause → cause = .outOfCycles

theorem reports_ok {s : σ} {out : List Record} (h : ∀ record ∈ out, record.isReport) :
    Reports (.ok (s, out)) where
  report s' out' hok := by
    cases hok
    exact h
  abort cause herror := by cases herror

theorem reports_silent (s : σ) : Reports (.silent s) := reports_ok (by simp)

theorem Reports.andThen {r : Reply σ} {next : σ → Reply τ} (hr : r.Reports)
    (hnext : ∀ s, (next s).Reports) : (r.andThen next).Reports where
  report t out h := by
    obtain ⟨s, out₁, out₂, h₁, h₂, rfl⟩ := andThen_eq_ok_iff.mp h
    intro record hrecord
    rcases List.mem_append.mp hrecord with hrecord | hrecord
    · exact hr.report s out₁ h₁ record hrecord
    · exact (hnext s).report t out₂ h₂ record hrecord
  abort cause h := by
    rcases andThen_eq_error_iff.mp h with h | ⟨s, -, -, h⟩
    · exact hr.abort cause h
    · exact (hnext s).abort cause h

theorem reports_feed {reply : σ → α → Reply σ} (h : ∀ s a, (reply s a).Reports) (inputs : List α)
    (s : σ) : (feed reply s inputs).Reports := by
  induction inputs generalizing s with
  | nil => exact reports_silent s
  | cons a inputs ih => exact (h s a).andThen ih

end Reply

open Reply

/-! ## Actions and chains -/

theorem reports_settle (c : Computer) (r : Except Fault Computer) : (settle c r).Reports := by
  cases r with
  | ok c' => exact reports_silent c'
  | error fault => exact reports_ok (by simp [Record.isReport])

theorem Outcome.reports_reply (o : Outcome) : o.reply.Reports := by
  have hprinted : ∀ record ∈ o.printed.toList.map Record.printed, record.isReport := by
    simp [Record.isReport]
  unfold Outcome.reply
  cases o.ending with
  | finished payload => exact reports_ok hprinted
  | failed fault =>
    refine reports_ok fun record hrecord => ?_
    rcases List.mem_append.mp hrecord with hrecord | hrecord
    · exact hprinted record hrecord
    · rw [List.mem_singleton.mp hrecord]
      rfl
  | unfinished => exact ⟨nofun, fun cause h => (Except.error.inj h).symm⟩

theorem reports_action (limit : Nat) (vs : Variables) (c : Computer) (action : Action) :
    (action.reply limit vs c).Reports := by
  rcases action with operand | ⟨mnemonic, _ | operand⟩ | _
  · rw [Action.reply]
    split
    · exact reports_settle c _
    · exact reports_silent c
  · exact reports_settle c _
  · rw [Action.reply]
    split
    · exact reports_settle c _
    · exact reports_silent c
  · exact Outcome.reports_reply _

theorem reports_link (limit : Nat) (vs : Variables) (c : Computer) (link : Text) :
    (linkReply limit vs c link).Reports := by
  unfold linkReply
  split
  · exact reports_action limit vs c _
  · exact reports_silent c

theorem reports_chain (limit : Nat) (vs : Variables) (bench : Option Bench) (line : Text) :
    (chainReply limit vs bench line).Reports := by
  unfold chainReply
  split
  · exact reports_silent none
  · split
    · exact reports_silent _
    · exact (reports_feed (reports_link limit vs) _ _).andThen fun c => reports_silent _

/-! ## Constructions -/

/-- **Oversized:** a size that is a word, of a store that has more bytes than memory can address. -/
def Oversized (size : Nat) : Prop := size ≤ 2 ^ 63 - 1 ∧ 2 ^ 63 - 1 < 24 * size

instance : DecidablePred Oversized := fun _ => instDecidableAnd

/-- **Lines that construct a computer of an oversized size.** -/
def Oversizes (line : Text) : Prop := ∃ named ∈ construction? line, Oversized named.2

instance : DecidablePred Oversizes := fun line =>
  inferInstanceAs (Decidable (∃ named ∈ construction? line, Oversized named.2))

theorem Computer.ofSize_eq_error_iff {size : Nat} {w : Word} (hw : w.toInt = size) {cause : Abort} :
    Computer.ofSize w = .error cause ↔ cause = .storeTooLarge ∧ 2 ^ 63 - 1 < 24 * size := by
  have hcapacity : 2 ^ 63 - 1 < 24 * size ↔
      ¬ Store.slotBytes * Store.capacityFor w ≤ Store.maxBytes := by
    unfold Store.capacityFor Store.slotBytes Store.maxBytes Store.defaultCapacity
    rw [hw]
    split <;> omega
  rw [Computer.ofSize, Store.ofSize, hcapacity]
  split
  · rename_i hfits
    simp [Except.map, hfits]
  · rename_i hfits
    simp [Except.map, hfits, eq_comm]

theorem Word.ofInt?_natCast (n : Nat) : (Word.ofInt? n).isSome ↔ n ≤ 2 ^ 63 - 1 := by
  have hmin : Int64.minValue.toInt = -2 ^ 63 := rfl
  have hmax : Int64.maxValue.toInt = 2 ^ 63 - 1 := rfl
  unfold Word.ofInt?
  rw [hmin, hmax]
  split
  · rename_i h
    simp only [Option.isSome_some, true_iff]
    omega
  · rename_i h
    simp only [Option.isSome_none, Bool.false_eq_true, false_iff]
    omega

theorem construct_eq_error_iff {bench : Option Bench} {name : Text} {size : Nat} {cause : Abort} :
    construct bench name size = .error cause ↔ cause = .storeTooLarge ∧ Oversized size := by
  rw [construct, Oversized, ← Word.ofInt?_natCast]
  cases hw : Word.ofInt? size with
  | none => simp
  | some w =>
    have hofSize : Computer.ofSize w = .error cause ↔
        cause = .storeTooLarge ∧ 2 ^ 63 - 1 < 24 * size :=
      Computer.ofSize_eq_error_iff (Word.toInt_of_ofInt? hw)
    have hmap : ((Computer.ofSize w).map fun computer => (some (Bench.mk name computer), [])) =
        (.error cause : Reply (Option Bench)) ↔ Computer.ofSize w = .error cause := by
      cases Computer.ofSize w <;> simp [Except.map]
    rw [Option.elim_some, hmap, hofSize, Option.isSome_some]
    simp

/-! ## Lines of a routine -/

section Lines

variable {limit : Nat} {vs : Variables} {bench : Option Bench} {line : Text} {lines : List Text}

theorem isReport_of_replayLine {bench' : Option Bench} {out : List Record}
    (h : replayLine limit vs bench line = .ok (bench', out)) :
    ∀ record ∈ out, record.isReport := by
  unfold replayLine at h
  split at h
  · rw [(construct_cases h).1]
    simp
  · exact (reports_chain limit vs bench line).report bench' out h

theorem replayLine_eq_storeTooLarge_iff :
    replayLine limit vs bench line = .error .storeTooLarge ↔ Oversizes line := by
  rw [replayLine, Oversizes]
  cases hline : construction? line with
  | some named =>
    rw [construct_eq_error_iff]
    simp
  | none =>
    have hchain : chainReply limit vs bench line ≠ .error .storeTooLarge := by
      intro h
      exact absurd ((reports_chain limit vs bench line).abort _ h) (by decide)
    simp [hchain]

theorem isReport_of_replay {bench' : Option Bench} {out : List Record}
    (h : replay limit vs bench lines = .ok (bench', out)) : ∀ record ∈ out, record.isReport := by
  have hensures : Ensures (fun _ : Option Bench => True) (fun record => record.isReport)
      (replay limit vs bench lines) :=
    ensures_feed (fun _ _ _ _ _ h => ⟨trivial, isReport_of_replayLine h⟩) lines trivial
  exact (hensures bench' out h).2

/-- **A replay asks for too much memory** exactly when it reaches a line that is oversized. -/
theorem replay_eq_storeTooLarge_iff :
    replay limit vs bench lines = .error .storeTooLarge ↔
      ∃ before line behind bench' out, lines = before ++ line :: behind ∧
        replay limit vs bench before = .ok (bench', out) ∧ Oversizes line := by
  simp only [replay, feed_eq_error_iff, replayLine_eq_storeTooLarge_iff]

end Lines

end CellMachine
