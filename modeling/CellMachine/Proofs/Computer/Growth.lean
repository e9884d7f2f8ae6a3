import CellMachine.Proofs.Computer.Trace

/-! # How stores grow

A cycle appends one slot to the store at most. So a run makes a store longer by no more slots than
it has taken cycles, in each of its states and at its end, whatever the program.

* `Store.HasRoom`: stores that can be pushed on.
* `Cycle.store`, `length_cycle_le`: the store that a cycle leaves, and its length.
* `length_after_le`, `length_run_le`, `length_execute_le`: the stores along a run and at its end. -/

namespace CellMachine

namespace Store

/-- **Stores with room to grow.** A push may lay the store out anew, with up to twice the slots that
it then has; these fit in memory. -/
def HasRoom (s : Store) : Prop := slotBytes * (2 * s.length) ≤ maxBytes

instance : DecidablePred HasRoom :=
  fun s => inferInstanceAs (Decidable (slotBytes * (2 * s.length) ≤ maxBytes))

theorem length_popValue_le (s : Store) : s.popValue.2.length ≤ s.length := by
  have hpop : s.popValue.2.length = s.pop.2.length := rfl
  rw [hpop, length_pop]
  split <;> omega

theorem length_pushValue (s : Store) (w : Word) : (s.pushValue w).length = s.length + 1 :=
  length_push s (.value w)

end Store

/-! ## Cycles -/

/-- The store that a cycle leaves. -/
def Cycle.store : Cycle → Store
  | next k => k.computer.store
  | halt outcome => outcome.computer.store

namespace Config

theorem length_mult_le (k : Config) : k.mult.store.length ≤ k.computer.store.length + 1 := by
  obtain ⟨⟨store, pc⟩, payload, printed⟩ := k
  have hfirst := store.length_popValue_le
  have hsecond := store.popValue.2.length_popValue_le
  have hpush := store.popValue.2.popValue.2.length_pushValue
  dsimp only [mult]
  split
  · dsimp only [Cycle.store]
    rw [hpush]
    omega
  · dsimp only [fail, Cycle.store]
    omega

theorem length_ret_le (k : Config) : k.ret.store.length ≤ k.computer.store.length := by
  obtain ⟨⟨store, pc⟩, payload, printed⟩ := k
  dsimp only [ret]
  split
  · exact store.length_popValue_le
  · split <;> exact store.length_popValue_le

theorem length_print_le (k : Config) : k.print.store.length ≤ k.computer.store.length := by
  obtain ⟨⟨store, pc⟩, payload, printed⟩ := k
  dsimp only [print]
  split <;> exact store.length_popValue_le

theorem length_call_le (argument : Option Word) (k : Config) :
    (k.call argument).store.length ≤ k.computer.store.length := by
  obtain ⟨⟨store, pc⟩, payload, printed⟩ := k
  cases argument with
  | none => exact Nat.le_refl _
  | some w =>
    dsimp only [call]
    split <;> exact Nat.le_refl _

theorem length_push_le (argument : Option Word) (k : Config) :
    (k.push argument).store.length ≤ k.computer.store.length + 1 := by
  obtain ⟨⟨store, pc⟩, payload, printed⟩ := k
  cases argument with
  | none => exact Nat.le_succ _
  | some w => exact Nat.le_of_eq (store.length_pushValue w)

/-- **A cycle appends one slot at most.** -/
theorem length_cycle_le (k : Config) : k.cycle.store.length ≤ k.computer.store.length + 1 := by
  rw [cycle]
  split
  · split
    · exact Nat.le_succ _
    · exact Nat.le_succ _
    · rename_i op argument _
      cases op with
      | mult => exact k.length_mult_le
      | call => exact Nat.le_succ_of_le (k.length_call_le argument)
      | ret => exact Nat.le_succ_of_le k.length_ret_le
      | stop => exact Nat.le_succ _
      | print => exact Nat.le_succ_of_le k.length_print_le
      | push => exact k.length_push_le argument
  · exact Nat.le_succ _

/-! ## Runs -/

theorem length_after_le {n : Nat} {k k' : Config} (h : k.after n = some k') :
    k'.computer.store.length ≤ k.computer.store.length + n := by
  induction n generalizing k with
  | zero =>
    cases h
    exact Nat.le_refl _
  | succ n ih =>
    have hcycle := k.length_cycle_le
    rw [after] at h
    split at h
    · rename_i k₁ hk₁
      rw [hk₁] at hcycle
      have hrest := ih h
      dsimp only [Cycle.store] at hcycle
      omega
    · cases h

theorem length_run_le (limit : Nat) (k : Config) :
    (k.run limit).computer.store.length ≤ k.computer.store.length + limit := by
  induction limit generalizing k with
  | zero => exact Nat.le_refl _
  | succ limit ih =>
    have hcycle := k.length_cycle_le
    rw [run_succ]
    cases hk : k.cycle with
    | next k' =>
      rw [hk] at hcycle
      have hrest := ih k'
      dsimp only [Cycle.store] at hcycle ⊢
      omega
    | halt outcome =>
      rw [hk] at hcycle
      dsimp only [Cycle.store] at hcycle ⊢
      omega

end Config

theorem Computer.length_execute_le (limit : Nat) (c : Computer) :
    (c.execute limit).computer.store.length ≤ c.store.length + limit := by
  rw [execute]
  split
  · exact Config.length_run_le limit c.start
  · exact Nat.le_add_right _ _

end CellMachine
