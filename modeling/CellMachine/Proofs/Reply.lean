import CellMachine.Record
import Mathlib.Algebra.Ring.Nat

/-! # What replies ensure

`Reply.Ensures P Q r`: if the reply `r` does not abort, the state it leads to has `P` and each
record it emits has `Q`. Both are carried through one reply after another (`Ensures.andThen`) and
through the feeding of any inputs (`ensures_feed`, `ensures_feed_of_mem`, and
`ensures_feed_weighted` for what changes with each input), which is how invariants of benches and of
sessions are proved.

* `andThen_silent_eq_ok_iff`: replies with a silent last step. `feed_split`: inputs that are answered,
  taken apart at one of them.
* `andThen_eq_error_iff`, `feed_eq_error_iff`: where an abort comes from.
* `feed_filter`: inputs that are passed over in silence may as well be left out.
* `Reply.onState`: the reply with its state seen through a function. A function that goes along with
  each reply goes along with feeding (`onState_feed`).
* `Reply.Fed`: feeding with the records of each input apart, which is feeding (`feed_eq_ok_iff`).
* `Reply.unechoed`: the reply without the echoes among its records, which is fed like any other
  (`unechoed_feed`). -/

namespace CellMachine

namespace Reply

variable {σ τ α : Type} {P : σ → Prop} {P' : τ → Prop} {Q : Record → Prop}

/-- A reply that does not abort leads to a state with `P` and emits records with `Q`. -/
def Ensures (P : σ → Prop) (Q : Record → Prop) (r : Reply σ) : Prop :=
  ∀ s out, r = .ok (s, out) → P s ∧ ∀ record ∈ out, Q record

theorem ensures_ok {s : σ} {out : List Record} (hs : P s) (hout : ∀ record ∈ out, Q record) :
    Ensures P Q (.ok (s, out)) := by
  intro s' out' h
  cases h
  exact ⟨hs, hout⟩

theorem ensures_silent {s : σ} (hs : P s) : Ensures P Q (.silent s) :=
  ensures_ok hs (by simp)

theorem ensures_error (abort : Abort) : Ensures P Q (.error abort) := by
  intro s out h
  cases h

theorem Ensures.andThen {r : Reply σ} {next : σ → Reply τ} (hr : Ensures P Q r)
    (hnext : ∀ s, P s → Ensures P' Q (next s)) : Ensures P' Q (r.andThen next) := by
  intro t out h
  obtain ⟨s, out₁, out₂, h₁, h₂, rfl⟩ := andThen_eq_ok_iff.mp h
  obtain ⟨hs, hout₁⟩ := hr s out₁ h₁
  obtain ⟨ht, hout₂⟩ := hnext s hs t out₂ h₂
  refine ⟨ht, fun record hrecord => ?_⟩
  rcases List.mem_append.mp hrecord with hrecord | hrecord
  · exact hout₁ record hrecord
  · exact hout₂ record hrecord

/-- **What the reply to each input ensures, feeding ensures.** -/
theorem ensures_feed_of_mem {reply : σ → α → Reply σ} {inputs : List α}
    (hreply : ∀ s, ∀ a ∈ inputs, P s → Ensures P Q (reply s a)) {s : σ} (hs : P s) :
    Ensures P Q (feed reply s inputs) := by
  induction inputs generalizing s with
  | nil => exact ensures_silent hs
  | cons a inputs ih =>
    refine (hreply s a (List.mem_cons_self ..) hs).andThen fun s' hs' => ih ?_ hs'
    exact fun s b hb => hreply s b (List.mem_cons_of_mem _ hb)

theorem ensures_feed {reply : σ → α → Reply σ}
    (hreply : ∀ s a, P s → Ensures P Q (reply s a)) (inputs : List α) {s : σ} (hs : P s) :
    Ensures P Q (feed reply s inputs) :=
  ensures_feed_of_mem (fun s a _ => hreply s a) hs

/-- What holds up to a number that grows with each input, by the weight of that input, holds after
all of them up to the sum. -/
theorem ensures_feed_weighted {P : Nat → σ → Prop} {weight : α → Nat} {reply : σ → α → Reply σ}
    {inputs : List α}
    (hreply : ∀ n s, ∀ a ∈ inputs, P n s → Ensures (P (n + weight a)) Q (reply s a)) {n : Nat}
    {s : σ} (hs : P n s) :
    Ensures (P (n + (inputs.map weight).sum)) Q (feed reply s inputs) := by
  induction inputs generalizing n s with
  | nil => exact ensures_silent hs
  | cons a inputs ih =>
    rw [List.map_cons, List.sum_cons, ← Nat.add_assoc]
    refine (hreply n s a (List.mem_cons_self ..) hs).andThen fun s' hs' => ih ?_ hs'
    exact fun n s b hb => hreply n s b (List.mem_cons_of_mem _ hb)

theorem andThen_silent_eq_ok_iff {r : Reply σ} {f : σ → τ} {t : τ} {out : List Record} :
    r.andThen (fun s => .silent (f s)) = .ok (t, out) ↔ ∃ s, r = .ok (s, out) ∧ t = f s := by
  rw [andThen_eq_ok_iff]
  constructor
  · rintro ⟨s, out₁, out₂, hr, hlast, rfl⟩
    cases hlast
    rw [List.append_nil]
    exact ⟨s, hr, rfl⟩
  · rintro ⟨s, hr, rfl⟩
    exact ⟨s, out, [], hr, rfl, (List.append_nil out).symm⟩

/-- Inputs that are answered, taken apart at one of them. -/
theorem feed_split {reply : σ → α → Reply σ} {s s' : σ} {a : α} {before behind : List α}
    {out : List Record} (h : feed reply s (before ++ a :: behind) = .ok (s', out)) :
    ∃ s₁ s₂ out₁ out₂ out₃, feed reply s before = .ok (s₁, out₁) ∧ reply s₁ a = .ok (s₂, out₂) ∧
      feed reply s₂ behind = .ok (s', out₃) ∧ out = out₁ ++ out₂ ++ out₃ := by
  rw [feed_append] at h
  obtain ⟨s₁, out₁, rest, hbefore, hrest, rfl⟩ := andThen_eq_ok_iff.mp h
  obtain ⟨s₂, out₂, out₃, ha, hbehind, rfl⟩ := andThen_eq_ok_iff.mp hrest
  exact ⟨s₁, s₂, out₁, out₂, out₃, hbefore, ha, hbehind, (List.append_assoc ..).symm⟩

/-! ## Aborts -/

variable {abort : Abort}

theorem andThen_eq_error_iff {r : Reply σ} {next : σ → Reply τ} :
    andThen r next = .error abort ↔
      r = .error abort ∨ ∃ s out, r = .ok (s, out) ∧ next s = .error abort := by
  rcases r with abort' | ⟨s, out⟩
  · simp
  · rw [andThen_ok]
    cases h : next s <;> simp [Except.map, h]

/-- **Feeding aborts at one input,** whose predecessors were all answered. -/
theorem feed_eq_error_iff {reply : σ → α → Reply σ} {inputs : List α} {s : σ} :
    feed reply s inputs = .error abort ↔
      ∃ before a behind s' out, inputs = before ++ a :: behind ∧
        feed reply s before = .ok (s', out) ∧ reply s' a = .error abort := by
  induction inputs generalizing s with
  | nil => simp
  | cons a inputs ih =>
    rw [feed_cons, andThen_eq_error_iff]
    constructor
    · rintro (h | ⟨s₁, out₁, h₁, h⟩)
      · exact ⟨[], a, inputs, s, [], rfl, rfl, h⟩
      · obtain ⟨before, b, behind, s', out, rfl, hbefore, hb⟩ := ih.mp h
        refine ⟨a :: before, b, behind, s', out₁ ++ out, rfl, ?_, hb⟩
        exact andThen_eq_ok_iff.mpr ⟨s₁, out₁, out, h₁, hbefore, rfl⟩
    · rintro ⟨before, b, behind, s', out, hsplit, hbefore, hb⟩
      cases before with
      | nil =>
        cases hsplit
        cases hbefore
        exact Or.inl hb
      | cons a' before =>
        cases hsplit
        obtain ⟨s₁, out₁, out₂, h₁, h₂, -⟩ := andThen_eq_ok_iff.mp hbefore
        exact Or.inr ⟨s₁, out₁, h₁, ih.mpr ⟨before, b, behind, s', out₂, rfl, h₂, hb⟩⟩

/-! ## One input, and silent ones -/

theorem feed_singleton (reply : σ → α → Reply σ) (s : σ) (a : α) :
    feed reply s [a] = reply s a := by
  rw [feed_cons]
  rcases reply s a with abort | ⟨s', out⟩
  · rfl
  · simp [andThen_ok, Except.map]

theorem feed_silent {reply : σ → α → Reply σ} {s : σ} {inputs : List α}
    (h : ∀ a ∈ inputs, reply s a = .silent s) : feed reply s inputs = .silent s := by
  induction inputs with
  | nil => rfl
  | cons a inputs ih =>
    rw [feed_cons, h a (List.mem_cons_self ..), silent_andThen]
    exact ih fun b hb => h b (List.mem_cons_of_mem a hb)

theorem feed_filter {reply : σ → α → Reply σ} {p : α → Bool}
    (h : ∀ s a, p a = false → reply s a = .silent s) (s : σ) (inputs : List α) :
    feed reply s (inputs.filter p) = feed reply s inputs := by
  induction inputs generalizing s with
  | nil => rfl
  | cons a inputs ih =>
    by_cases ha : p a
    · simp only [List.filter_cons_of_pos ha, feed_cons, ih]
    · rw [List.filter_cons_of_neg ha, feed_cons, h s a (by simpa using ha), silent_andThen, ih]

/-! ## States seen through a function -/

/-- **The reply with its state seen through `f`.** The records stay. -/
def onState (f : σ → τ) (r : Reply σ) : Reply τ := r.map fun (s, out) => (f s, out)

theorem onState_eq_error_iff {f : σ → τ} {r : Reply σ} :
    r.onState f = .error abort ↔ r = .error abort := by
  rcases r with abort' | ⟨s, out⟩ <;> simp [onState, Except.map]

theorem onState_andThen {υ : Type} (f : τ → υ) (r : Reply σ) (next : σ → Reply τ) :
    (r.andThen next).onState f = r.andThen fun s => (next s).onState f := by
  rcases r with abort | ⟨s, out⟩
  · rfl
  · rw [andThen_ok, andThen_ok]
    rcases next s with abort | ⟨t, more⟩ <;> rfl

theorem andThen_silent (r : Reply σ) (f : σ → τ) :
    r.andThen (fun s => .silent (f s)) = r.onState f := by
  rcases r with abort | ⟨s, out⟩
  · rfl
  · rw [andThen_ok]
    simp [onState, Except.map]

/-- **A function that goes along with each reply goes along with feeding.** -/
theorem onState_feed {β : Type} {f : σ → τ} {g : α → β} {reply : σ → α → Reply σ}
    {reply' : τ → β → Reply τ} {inputs : List α}
    (h : ∀ s, ∀ a ∈ inputs, (reply s a).onState f = reply' (f s) (g a)) (s : σ) :
    (feed reply s inputs).onState f = feed reply' (f s) (inputs.map g) := by
  induction inputs generalizing s with
  | nil => rfl
  | cons a inputs ih =>
    have htail := ih fun s b hb => h s b (List.mem_cons_of_mem a hb)
    rw [feed_cons, List.map_cons, feed_cons, ← h s a (List.mem_cons_self ..)]
    rcases reply s a with abort | ⟨s', out⟩
    · rfl
    · have hseen : onState f (.ok (s', out)) = .ok (f s', out) := rfl
      rw [hseen, andThen_ok, andThen_ok, ← htail s']
      rcases feed reply s' inputs with abort | ⟨s'', more⟩ <;> rfl

/-! ## The records of each input -/

/-- **Feeding with the records of each input apart.** The lists of records are those of the inputs,
in order. -/
inductive Fed (reply : σ → α → Reply σ) : σ → List α → List (List Record) → σ → Prop
  | nil (s : σ) : Fed reply s [] [] s
  | cons {s s₁ s' : σ} {a : α} {inputs : List α} {out : List Record} {outs : List (List Record)}
      (first : reply s a = .ok (s₁, out)) (rest : Fed reply s₁ inputs outs s') :
      Fed reply s (a :: inputs) (out :: outs) s'

theorem feed_eq_ok_iff {reply : σ → α → Reply σ} {s s' : σ} {inputs : List α}
    {out : List Record} :
    feed reply s inputs = .ok (s', out) ↔
      ∃ outs, Fed reply s inputs outs s' ∧ out = outs.flatten := by
  induction inputs generalizing s out with
  | nil =>
    constructor
    · intro h
      cases h
      exact ⟨[], .nil _, rfl⟩
    · rintro ⟨outs, hfed, rfl⟩
      cases hfed
      rfl
  | cons a inputs ih =>
    rw [feed_cons, andThen_eq_ok_iff]
    constructor
    · rintro ⟨s₁, out₁, out₂, hfirst, hrest, rfl⟩
      obtain ⟨outs, hfed, rfl⟩ := ih.mp hrest
      exact ⟨out₁ :: outs, .cons hfirst hfed, rfl⟩
    · rintro ⟨outs, hfed, rfl⟩
      cases hfed with
      | cons hfirst hrest => exact ⟨_, _, _, hfirst, ih.mpr ⟨_, hrest, rfl⟩, rfl⟩

/-! ## Echoes -/

/-- **The reply without its echoes.** -/
def unechoed (r : Reply σ) : Reply σ :=
  r.map fun (s, out) => (s, out.filter fun record => !record.isEcho)

theorem unechoed_andThen (r : Reply σ) (next : σ → Reply τ) :
    (r.andThen next).unechoed = r.unechoed.andThen fun s => (next s).unechoed := by
  rcases r with abort | ⟨s, out⟩
  · rfl
  · have hr : unechoed (.ok (s, out)) = .ok (s, out.filter fun record => !record.isEcho) := rfl
    rw [hr, andThen_ok, andThen_ok]
    rcases next s with abort | ⟨t, more⟩
    · rfl
    · simp [unechoed, Except.map]

theorem unechoed_feed (reply : σ → α → Reply σ) (s : σ) (inputs : List α) :
    (feed reply s inputs).unechoed = feed (fun s a => (reply s a).unechoed) s inputs := by
  induction inputs generalizing s with
  | nil => rfl
  | cons a inputs ih => simp only [feed_cons, unechoed_andThen, ih]

theorem unechoed_eq_error_iff {r : Reply σ} : r.unechoed = .error abort ↔ r = .error abort := by
  rcases r with abort' | ⟨s, out⟩ <;> simp [unechoed, Except.map]

theorem filter_of_no_echo {out : List Record} (h : ∀ record ∈ out, record.isEcho = false) :
    (out.filter fun record => !record.isEcho) = out := by
  refine List.filter_eq_self.mpr fun record hrecord => ?_
  rw [h record hrecord]
  rfl

theorem unechoed_eq_self {r : Reply σ}
    (h : ∀ s out, r = .ok (s, out) → ∀ record ∈ out, record.isEcho = false) : r.unechoed = r := by
  rcases r with abort | ⟨s, out⟩
  · rfl
  · simp only [unechoed, Except.map, filter_of_no_echo (h s out rfl)]

end Reply

end CellMachine
