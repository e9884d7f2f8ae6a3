import CellMachine.Proofs.Computer.Reachable

/-! # Edits

Between two runs a computer is *edited*: its program counter is set, and instructions are written by
mnemonic or by operation. An insertion is bounded by the length of the store and not by its size.
When runs have left cells beyond the addressable slots, an insertion can follow the program counter
there and overwrite one of them; this is the only way in which an edit touches what runs have left.

* `Edit`, `Edit.result`: the operations that run nothing, and what each gives.
* `Edit.instruction?`: the instruction that a well-formed insertion writes.
* `Computer.edit`, `Computer.written`: the computer after edits, and the slots they have written.
* `result_eq_ok_cases`: all that an edit can do.
* `peek_edit`, `stack_edit`: slots that are not written stay as they are, and so do the operands
  when all slots that are written are addressable.
* `insertion_bounded_by_length`: what edits do to a reachable computer. `insertion_beyond_size`: one
  that overwrites an operand. -/

namespace CellMachine

/-- **Edits.** The operations of a computer that run nothing. -/
inductive Edit where
  | setAddress (address : Word)
  | insert (mnemonic : Text) (argument : Option Word)
  | insertOp (op : Opcode) (argument : Option Word)
deriving DecidableEq, Repr

/-- The well-formed instruction with a given operation: the argument has to be there if the
operation takes one, and is dropped if not. -/
def Opcode.instruction? (op : Opcode) (argument : Option Word) : Option Cell :=
  if op.takesArgument then argument.map fun w => .instruction op (some w)
  else some (.instruction op none)

namespace Edit

/-- **What an edit gives.** -/
def result (c : Computer) : Edit → Except Fault Computer
  | setAddress address => c.setAddress address
  | insert mnemonic argument => c.insert mnemonic argument
  | insertOp op argument => c.insertOp op argument

/-- The edit as an operation. -/
def operation : Edit → Operation
  | setAddress address => .setAddress address
  | insert mnemonic argument => .insert mnemonic argument
  | insertOp op argument => .insertOp op argument

/-- Whether an edit is to write an instruction. -/
def isInsertion : Edit → Bool
  | setAddress _ => false
  | insert _ _ | insertOp _ _ => true

/-- **The instruction that a well-formed insertion writes.** An insertion is well-formed when its
mnemonic is known and the argument is there that its operation takes. -/
def instruction? : Edit → Option Cell
  | setAddress _ => none
  | insert mnemonic argument => (Opcode.ofMnemonic? mnemonic).bind (·.instruction? argument)
  | insertOp op argument => op.instruction? argument

end Edit

namespace Computer

/-- **The computer after edits.** One that fails leaves it as it was. -/
def edit (c : Computer) : List Edit → Computer
  | [] => c
  | e :: edits => (c.attempt (e.result c)).edit edits

/-- **The slots that edits write,** one for each insertion that succeeds. -/
def written (c : Computer) : List Edit → List Nat
  | [] => []
  | e :: edits =>
    (if e.isInsertion && (e.result c).isOk then [c.pc] else []) ++
      (c.attempt (e.result c)).written edits

end Computer

/-! ## One edit -/

theorem Opcode.encode_eq_ok_iff {op : Opcode} {argument : Option Word} {cell : Cell} :
    Computer.encode op argument = .ok cell ↔ op.instruction? argument = some cell := by
  unfold Computer.encode Opcode.instruction?
  split
  · cases argument <;> simp
  · simp

namespace Edit

variable {c c' : Computer} {e : Edit} {cell : Cell}

theorem result_insertOp {op : Opcode} {argument : Option Word}
    (h : op.instruction? argument = some cell) :
    c.insertOp op argument = (c.store.insert cell c.pc).map fun store => ⟨store, c.pc + 1⟩ := by
  rcases c with ⟨store, pc⟩
  rw [Computer.insertOp, Opcode.encode_eq_ok_iff.mpr h]

theorem result_of_instruction? (h : e.instruction? = some cell) :
    e.result c = (c.store.insert cell c.pc).map fun store => ⟨store, c.pc + 1⟩ := by
  cases e with
  | setAddress address => cases h
  | insert mnemonic argument =>
    obtain ⟨op, hop, hcell⟩ := Option.bind_eq_some_iff.mp h
    rw [result, Computer.insert, hop]
    exact result_insertOp hcell
  | insertOp op argument => exact result_insertOp h

theorem instruction?_of_insertOp {op : Opcode} {argument : Option Word}
    (h : c.insertOp op argument = .ok c') : ∃ cell, op.instruction? argument = some cell := by
  obtain ⟨cell, store, hcell, -⟩ := Computer.insertOp_eq_ok_iff.mp h
  exact ⟨cell, Opcode.encode_eq_ok_iff.mp hcell⟩

theorem instruction?_of_result (hins : e.isInsertion) (h : e.result c = .ok c') :
    ∃ cell, e.instruction? = some cell := by
  cases e with
  | setAddress address => cases hins
  | insert mnemonic argument =>
    rw [result, Computer.insert] at h
    split at h
    · rename_i op hop
      obtain ⟨cell, hcell⟩ := instruction?_of_insertOp h
      exact ⟨cell, by rw [instruction?, hop]; exact hcell⟩
    · cases h
  | insertOp op argument => exact instruction?_of_insertOp h

/-- **All that an edit can do:** to move the program counter, or to write an instruction at it and
advance. -/
theorem result_eq_ok_cases (h : e.result c = .ok c') :
    (e.isInsertion = false ∧ ∃ pc < c.size, c' = { c with pc }) ∨
      (e.isInsertion ∧ ∃ cell store, e.instruction? = some cell ∧
        c.store.insert cell c.pc = .ok store ∧ c' = ⟨store, c.pc + 1⟩) := by
  cases hins : e.isInsertion with
  | false =>
    cases e with
    | setAddress address =>
      rw [result, Computer.setAddress] at h
      split at h
      · rename_i pc hpc
        cases h
        exact Or.inl ⟨rfl, pc, (Word.index?_eq_some_iff.mp hpc).1, rfl⟩
      · cases h
    | insert | insertOp => cases hins
  | true =>
    obtain ⟨cell, hcell⟩ := instruction?_of_result hins h
    rw [result_of_instruction? hcell] at h
    cases hstore : c.store.insert cell c.pc with
    | error fault =>
      rw [hstore] at h
      cases h
    | ok store =>
      rw [hstore] at h
      cases h
      exact Or.inr ⟨rfl, cell, store, hcell, hstore, rfl⟩

end Edit

/-! ## Edits in succession -/

namespace Computer

variable {c c' : Computer} {e : Edit}

theorem peek_result (h : e.result c = .ok c') {i : Nat} (hi : e.isInsertion → i ≠ c.pc) :
    c'.store.peek i = c.store.peek i := by
  rcases Edit.result_eq_ok_cases h with ⟨-, pc, -, rfl⟩ | ⟨hins, cell, store, -, hstore, rfl⟩
  · rfl
  · rw [Store.peek_insert hstore, if_neg (hi hins)]

theorem shape_result (h : e.result c = .ok c') :
    c'.size = c.size ∧ c'.store.length = c.store.length := by
  rcases Edit.result_eq_ok_cases h with ⟨-, pc, -, rfl⟩ | ⟨-, cell, store, -, hstore, rfl⟩
  · exact ⟨rfl, rfl⟩
  · exact ⟨Store.capacity_insert hstore, Store.length_insert hstore⟩

theorem shape_edit (edits : List Edit) (c : Computer) :
    (c.edit edits).size = c.size ∧ (c.edit edits).store.length = c.store.length := by
  induction edits generalizing c with
  | nil => exact ⟨rfl, rfl⟩
  | cons e edits ih =>
    obtain ⟨hsize, hlength⟩ := ih (c.attempt (e.result c))
    rw [edit, hsize, hlength]
    cases he : e.result c with
    | error fault => exact ⟨rfl, rfl⟩
    | ok c' => exact shape_result he

theorem peek_edit {edits : List Edit} {c : Computer} {i : Nat} (hi : i ∉ c.written edits) :
    (c.edit edits).store.peek i = c.store.peek i := by
  induction edits generalizing c with
  | nil => rfl
  | cons e edits ih =>
    rw [written, List.mem_append, not_or] at hi
    rw [edit, ih hi.2]
    cases he : e.result c with
    | error fault => rfl
    | ok c' =>
      refine peek_result he fun hins hpc => hi.1 ?_
      rw [he, hins, hpc]
      exact List.mem_singleton_self _

/-- **The operands stay as they are** when all slots that are written are addressable. -/
theorem stack_edit {edits : List Edit} (h : ∀ i ∈ c.written edits, i < c.size) :
    (c.edit edits).store.stack = c.store.stack := by
  obtain ⟨hsize, hlength⟩ := c.shape_edit edits
  refine Store.stack_congr hsize hlength fun i hi => peek_edit fun hmem => ?_
  exact absurd (h i hmem) (Nat.not_lt_of_le hi)

/-! ## Edits of reachable computers -/

theorem Reachable.edit (h : c.Reachable) (edits : List Edit) : (c.edit edits).Reachable := by
  induction edits generalizing c with
  | nil => exact h
  | cons e edits ih => exact ih (h.leads e.operation (by cases e <;> rfl))

theorem Sound.length_eq (h : c.Sound) : c.store.length = c.size + c.store.stack.length :=
  h.length_machine

/-- **An insertion is bounded by the length of the store.** A well-formed one succeeds exactly when
the program counter is below the size plus the number of operands; it then writes its slot, advances
and changes no other slot, and otherwise it fails and changes nothing. Edits in succession never
change how many operands there are, and change an operand only by writing its slot, so when they
write addressable slots only, the next run finds the operands as the last one left them. -/
theorem insertion_bounded_by_length (h : c.Reachable) :
    (∀ e cell, Edit.instruction? e = some cell →
      (c.pc < c.size + c.store.stack.length →
        ∃ c', e.result c = .ok c' ∧ c'.pc = c.pc + 1 ∧
          ∀ i, c'.store.peek i = if i = c.pc then some cell else c.store.peek i) ∧
      (c.size + c.store.stack.length ≤ c.pc →
        e.result c = .error (.addressOutOfBounds c.pc c.store.length) ∧ c.edit [e] = c)) ∧
    (∀ e c', Edit.isInsertion e → e.result c = .ok c' →
      c.pc < c.size + c.store.stack.length) ∧
    ∀ edits, (c.edit edits).Reachable ∧ (c.edit edits).size = c.size ∧
      (c.edit edits).store.stack.length = c.store.stack.length ∧
      (∀ i, c.size ≤ i → i ∉ c.written edits →
        (c.edit edits).store.peek i = c.store.peek i) ∧
      ((∀ i ∈ c.written edits, i < c.size) → (c.edit edits).store.stack = c.store.stack) := by
  have hlength := h.sound.length_eq
  rw [← hlength]
  refine ⟨fun e cell hcell => ⟨fun hlt => ?_, fun hge => ?_⟩, fun e c' hins hok => ?_,
    fun edits => ?_⟩
  · have hstore : c.store.insert cell c.pc =
        .ok { c.store with slots := c.store.slots.setIfInBounds c.pc (some cell) } := if_pos hlt
    refine ⟨_, (Edit.result_of_instruction? hcell).trans (by rw [hstore]; rfl), rfl, ?_⟩
    exact Store.peek_insert hstore
  · have hstore : c.store.insert cell c.pc =
        .error (.addressOutOfBounds c.pc c.store.length) := if_neg (Nat.not_lt_of_le hge)
    have hresult : e.result c = .error (.addressOutOfBounds c.pc c.store.length) := by
      rw [Edit.result_of_instruction? hcell, hstore]
      rfl
    exact ⟨hresult, by rw [edit, hresult]; rfl⟩
  · rcases Edit.result_eq_ok_cases hok with ⟨hnot, -⟩ | ⟨-, cell, store, -, hstore, -⟩
    · rw [hins] at hnot
      cases hnot
    · exact Store.lt_of_insert hstore
  · have hedit := h.edit edits
    obtain ⟨hsize, hsame⟩ := c.shape_edit edits
    have hoperands := hedit.sound.length_eq
    exact ⟨hedit, hsize, by omega, fun i _ => peek_edit, stack_edit⟩

/-- A computer of one addressable slot whose run has pushed the value `5` and fallen off the end. -/
def overrun : Computer := ⟨⟨1, #[some (.instruction .push (some 5)), some (.value 5)]⟩, 1⟩

theorem reachable_overrun : overrun.Reachable :=
  ⟨1, _, [.insertOp .push (some 5), .setAddress 0, .execute], rfl,
    .cons rfl <| .cons rfl <| .cons ⟨2, by decide, rfl⟩ (.nil _)⟩

/-- A return is written over the push, and the value that was pushed is still there. -/
theorem insertion_bounded_by_length_overrun :
    overrun.Reachable ∧
      (∀ i ∈ overrun.written [.setAddress 0, .insert "RET".toList none], i < overrun.size) ∧
      (overrun.edit [.setAddress 0, .insert "RET".toList none]).store.stack = [.value 5] := by
  have hwritten :
      ∀ i ∈ overrun.written [.setAddress 0, .insert "RET".toList none], i < overrun.size := by
    decide
  exact ⟨reachable_overrun, hwritten,
    ((insertion_bounded_by_length reachable_overrun).2.2 _).2.2.2.2 hwritten⟩

/-- **An insertion beyond the size.** After the run the program counter stands on the value that was
pushed. The insertion of a stop succeeds there, and the value is gone. -/
theorem insertion_beyond_size :
    overrun.Reachable ∧ overrun.size ≤ overrun.pc ∧
      (Edit.insert "STOP".toList none).result overrun =
        .ok ⟨⟨1, #[some (.instruction .push (some 5)), some (.instruction .stop none)]⟩, 2⟩ ∧
      (¬ ∀ c : Computer, c.Reachable →
        ∀ e c', Edit.isInsertion e → e.result c = .ok c' → c.pc < c.size) ∧
      ¬ ∀ c : Computer, c.Reachable → ∀ edits, (c.edit edits).store.stack = c.store.stack := by
  refine ⟨reachable_overrun, Nat.le_refl 1, rfl, fun hall => ?_, fun hall => ?_⟩
  · exact absurd (hall overrun reachable_overrun (.insert "STOP".toList none) _ rfl rfl) (by decide)
  · exact absurd (hall overrun reachable_overrun [.insert "STOP".toList none]) (by decide)

end Computer

end CellMachine
