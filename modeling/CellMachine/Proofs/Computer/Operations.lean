import CellMachine.Proofs.Computer.StackMachine

/-! # The operations of a computer

When the operations that write to a computer succeed and what they give, and which faults they have
otherwise. What a run does is the subject of the modules on stack machines. -/

namespace CellMachine

theorem Store.lt_of_insert {store store' : Store} {cell : Cell} {index : Nat}
    (h : store.insert cell index = .ok store') : index < store.length := by
  unfold Store.insert at h
  split at h
  · assumption
  · cases h

theorem Store.insert_eq_error {store : Store} {cell : Cell} {index : Nat} {fault : Fault}
    (h : store.insert cell index = .error fault) :
    fault = .addressOutOfBounds index store.length := by
  unfold Store.insert at h
  split at h <;> cases h
  rfl

namespace Computer

variable {c c' : Computer} {fault : Fault} {op : Opcode} {argument : Option Word}

theorem setAddress_eq_error {address : Word} (h : c.setAddress address = .error fault) :
    fault = .counterOutOfBounds address c.size := by
  unfold setAddress at h
  split at h <;> cases h
  rfl

theorem isInstruction_of_encode {cell : Cell} (h : encode op argument = .ok cell) :
    cell.IsInstruction := by
  unfold encode at h
  cases op <;> cases argument <;> cases h <;> simp [Cell.IsInstruction]

theorem encode_eq_error (h : encode op argument = .error fault) : fault = .missingArgument op := by
  unfold encode at h
  cases op <;> cases argument <;> cases h <;> rfl

theorem insertOp_eq_ok_iff :
    c.insertOp op argument = .ok c' ↔
      ∃ cell store, encode op argument = .ok cell ∧ c.store.insert cell c.pc = .ok store ∧
        c' = ⟨store, c.pc + 1⟩ := by
  rcases c with ⟨store, pc⟩
  rw [Computer.insertOp]
  cases hcell : encode op argument with
  | error fault => simp
  | ok cell =>
    cases hstore : store.insert cell pc with
    | error fault => simp [hstore, Except.map]
    | ok store' => simp [hstore, Except.map, eq_comm]

theorem insertOp_eq_error (h : c.insertOp op argument = .error fault) :
    fault = .missingArgument op ∨ fault = .addressOutOfBounds c.pc c.store.length := by
  rcases c with ⟨store, pc⟩
  rw [insertOp] at h
  cases hcell : encode op argument with
  | error fault' =>
    rw [hcell] at h
    cases h
    exact Or.inl (encode_eq_error hcell)
  | ok cell =>
    rw [hcell] at h
    cases hstore : store.insert cell pc with
    | error fault' =>
      simp only [hstore, Except.map, Except.error.injEq] at h
      rw [← h]
      exact Or.inr (Store.insert_eq_error hstore)
    | ok store' => simp [hstore, Except.map] at h

theorem insert_eq_error {mnemonic : Text} (h : c.insert mnemonic argument = .error fault) :
    fault = .unknownMnemonic mnemonic ∨ (∃ op, fault = .missingArgument op) ∨
      fault = .addressOutOfBounds c.pc c.store.length := by
  unfold Computer.insert at h
  split at h
  · rename_i op hop
    rcases insertOp_eq_error h with hfault | hfault
    · exact Or.inr (Or.inl ⟨op, hfault⟩)
    · exact Or.inr (Or.inr hfault)
  · cases h
    exact Or.inl rfl

end Computer

end CellMachine
