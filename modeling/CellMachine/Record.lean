import CellMachine.Abort
import CellMachine.Word

/-! # Records and replies

A session answers what it reads with *records*: the values its computer prints, the messages of
faults, the lines of a script as they are read, and the end of the session.

* `Record`, `Record.text`: the records and how each is shown.
* `Reply σ`: what one piece of input leads to: a new state of type `σ` and the records emitted on
  the way, unless it aborts. `Reply.andThen`: one reply after another.
* `feed`: the reply to a list of inputs. `feed_append`: feeding two lists is feeding the first and
  then the second. -/

namespace CellMachine

/-- **Records.** -/
inductive Record where
  | printed (value : Word)
  | failure (message : Text)
  /-- A line of a script, as it is read. -/
  | echo (line : Text)
  | ended
deriving DecidableEq, Repr

namespace Record

/-- How a record is shown. -/
def text : Record → Text
  | printed value => value.text
  | failure message => message
  | echo line => "> ".toList ++ line
  | ended => "Session ended.".toList

/-- Whether a record is the echo of a line. -/
def isEcho : Record → Bool
  | echo _ => true
  | printed _ | failure _ | ended => false

/-- Records as lines of output, one each. -/
def lines (records : List Record) : Text := records.flatMap fun r => r.text ++ ['\n']

end Record

/-! ## Replies -/

/-- **Replies.** The new state and the records emitted on the way to it, or an abort. -/
abbrev Reply (σ : Type) := Except Abort (σ × List Record)

variable {σ τ υ α : Type}

namespace Reply

/-- The reply that leads to `s` and emits nothing. -/
abbrev silent (s : σ) : Reply σ := .ok (s, [])

/-- **One reply after another.** The records follow each other, and an abort ends it all. -/
def andThen (r : Reply σ) (next : σ → Reply τ) : Reply τ :=
  match r with
  | .error abort => .error abort
  | .ok (s, out) => (next s).map fun (t, more) => (t, out ++ more)

@[simp]
theorem andThen_error (abort : Abort) (next : σ → Reply τ) :
    andThen (.error abort) next = .error abort := rfl

theorem andThen_ok (s : σ) (out : List Record) (next : σ → Reply τ) :
    andThen (.ok (s, out)) next = (next s).map fun (t, more) => (t, out ++ more) := rfl

@[simp]
theorem silent_andThen (s : σ) (next : σ → Reply τ) : andThen (.ok (s, [])) next = next s := by
  rw [andThen_ok]; cases next s <;> rfl

theorem andThen_assoc (r : Reply σ) (f : σ → Reply τ) (g : τ → Reply υ) :
    andThen (andThen r f) g = andThen r fun s => andThen (f s) g := by
  rcases r with abort | ⟨s, out⟩
  · rfl
  · rw [andThen_ok, andThen_ok]
    rcases f s with abort | ⟨t, more⟩
    · rfl
    · simp only [Except.map, andThen_ok]
      cases g t <;> simp

/-- The replies that are composed without an abort, with their records. -/
theorem andThen_eq_ok_iff {r : Reply σ} {next : σ → Reply τ} {t : τ} {out : List Record} :
    andThen r next = .ok (t, out) ↔
      ∃ s out₁ out₂, r = .ok (s, out₁) ∧ next s = .ok (t, out₂) ∧ out = out₁ ++ out₂ := by
  rcases r with abort | ⟨s, out₁⟩
  · simp
  · rw [andThen_ok]
    cases h : next s with
    | error abort => simp [Except.map, h]
    | ok p =>
      simp only [Except.map, Except.ok.injEq, Prod.mk.injEq]
      constructor
      · rintro ⟨rfl, rfl⟩
        exact ⟨s, out₁, p.2, ⟨rfl, rfl⟩, h, rfl⟩
      · rintro ⟨s', o₁, o₂, ⟨rfl, rfl⟩, h', rfl⟩
        rw [h] at h'
        cases h'
        exact ⟨rfl, rfl⟩

end Reply

/-! ## Feeding -/

/-- **Feeding inputs in order.** Each input meets the state that the ones before it left. -/
def feed (reply : σ → α → Reply σ) (s : σ) : List α → Reply σ
  | [] => .silent s
  | a :: inputs => Reply.andThen (reply s a) fun s' => feed reply s' inputs

@[simp]
theorem feed_nil (reply : σ → α → Reply σ) (s : σ) : feed reply s [] = .ok (s, []) := rfl

@[simp]
theorem feed_cons (reply : σ → α → Reply σ) (s : σ) (a : α) (inputs : List α) :
    feed reply s (a :: inputs) = Reply.andThen (reply s a) fun s' => feed reply s' inputs := rfl

/-- **Feeding composes.** -/
theorem feed_append (reply : σ → α → Reply σ) (s : σ) (xs ys : List α) :
    feed reply s (xs ++ ys) = Reply.andThen (feed reply s xs) fun s' => feed reply s' ys := by
  induction xs generalizing s with
  | nil => simp
  | cons a xs ih => simp [ih, Reply.andThen_assoc]

end CellMachine
