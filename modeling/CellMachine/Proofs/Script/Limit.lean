import CellMachine.Proofs.Reply
import CellMachine.Script.Replay

/-! # Cycles that suffice

A reply may take a limited number of cycles for each run, and aborts when they are used up. The limit
decides whether there is an answer, but not which: once the cycles suffice, more of them change
nothing. Nor does an answer depend on how the variables are stored, but only on their values.

* `Reply.Kept`: every answer of one reply is an answer of another. It is carried through one reply
  after another (`Kept.andThen`) and through feeding (`kept_feed`).
* `kept_action`, `kept_chain`, `kept_replay`: answers are kept when there are more cycles, and
  variables of the same values. -/

namespace CellMachine

namespace Reply

variable {σ τ α : Type}

/-- **Every answer of `r` is an answer of `r'`.** -/
def Kept (r r' : Reply σ) : Prop := ∀ s out, r = .ok (s, out) → r' = .ok (s, out)

theorem Kept.refl (r : Reply σ) : r.Kept r := fun _ _ h => h

theorem Kept.andThen {r r' : Reply σ} {next next' : σ → Reply τ} (hr : r.Kept r')
    (hnext : ∀ s, (next s).Kept (next' s)) : (r.andThen next).Kept (r'.andThen next') := by
  intro t out h
  obtain ⟨s, out₁, out₂, h₁, h₂, hout⟩ := andThen_eq_ok_iff.mp h
  exact andThen_eq_ok_iff.mpr ⟨s, out₁, out₂, hr s out₁ h₁, hnext s t out₂ h₂, hout⟩

theorem kept_feed {reply reply' : σ → α → Reply σ} (h : ∀ s a, (reply s a).Kept (reply' s a))
    (s : σ) (inputs : List α) : (feed reply s inputs).Kept (feed reply' s inputs) := by
  induction inputs generalizing s with
  | nil => exact Kept.refl _
  | cons a inputs ih => exact (h s a).andThen ih

end Reply

open Reply

section Limit

variable {limit limit' : Nat} {vs vs' : Variables} (hlimit : limit ≤ limit')
  (hvars : ∀ x, vs.value? x = vs'.value? x)

include hlimit in
theorem kept_execute (c : Computer) : (c.execute limit).reply.Kept (c.execute limit').reply := by
  intro c' out h
  have hend : (c.execute limit).ending ≠ .unfinished := by
    intro hend
    rw [Outcome.reply, hend] at h
    cases h
  obtain ⟨more, rfl⟩ := Nat.exists_eq_add_of_le hlimit
  rw [Computer.execute_add hend more]
  exact h

include hvars in
theorem resolve_congr (operand : Operand) : operand.resolve vs = operand.resolve vs' := by
  cases operand with
  | literal value => rfl
  | named name => exact hvars name

include hlimit hvars

theorem kept_action (c : Computer) (action : Action) :
    (action.reply limit vs c).Kept (action.reply limit' vs' c) := by
  rcases action with operand | ⟨mnemonic, _ | operand⟩ | _
  · rw [Action.reply, Action.reply, resolve_congr hvars operand]
    exact Kept.refl _
  · exact Kept.refl _
  · rw [Action.reply, Action.reply, resolve_congr hvars operand]
    exact Kept.refl _
  · exact kept_execute hlimit c

theorem kept_link (c : Computer) (link : Text) :
    (linkReply limit vs c link).Kept (linkReply limit' vs' c link) := by
  unfold linkReply
  split
  · exact kept_action hlimit hvars c _
  · exact Kept.refl _

theorem kept_chain (bench : Option Bench) (line : Text) :
    (chainReply limit vs bench line).Kept (chainReply limit' vs' bench line) := by
  unfold chainReply
  split
  · exact Kept.refl _
  · split
    · exact Kept.refl _
    · exact (kept_feed (kept_link hlimit hvars) _ _).andThen fun _ => Kept.refl _

/-- **A replay that was answered is answered alike** when there are more cycles. -/
theorem kept_replay (bench : Option Bench) (lines : List Text) :
    (replay limit vs bench lines).Kept (replay limit' vs' bench lines) := by
  refine kept_feed (fun bench line => ?_) bench lines
  unfold replayLine
  split
  · exact Kept.refl _
  · exact kept_chain hlimit hvars bench line

end Limit

end CellMachine
