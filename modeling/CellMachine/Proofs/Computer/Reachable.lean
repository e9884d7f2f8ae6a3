import CellMachine.Proofs.Computer.Sound

/-! # Reachable computers

A computer is *reachable* when it comes from a fresh one by operations in any order and number: the
program counter is set, instructions are written by mnemonic or by operation, and programs are run.
An operation may fail, and the computer is then used further as the failure left it; only a run that
never ends leads nowhere.

* `Operation`, `Operation.Leads`, `Computer.Leads`: operations, and where one of them and a list of
  them lead.
* `Computer.Reachable`: the computers that come from fresh ones.
* `Leads.sound`, `Reachable.sound`: every operation keeps a sound computer sound.
* `sound_of_leads`: all computers that come from a fresh one are sound and of its size, and no run
  of theirs fails for an instruction that is malformed. -/

namespace CellMachine

/-- **The operations of a computer.** -/
inductive Operation where
  | setAddress (address : Word)
  | insert (mnemonic : Text) (argument : Option Word)
  | insertOp (op : Opcode) (argument : Option Word)
  | execute
deriving DecidableEq, Repr

/-- The computer after an attempt: a fault leaves it as it was. -/
def Computer.attempt (c : Computer) : Except Fault Computer → Computer
  | .ok c' => c'
  | .error _ => c

/-- **Where an operation leads.** A run leads to the computer it leaves, if it ends. -/
def Operation.Leads (c : Computer) : Operation → Computer → Prop
  | setAddress address, c' => c' = c.attempt (c.setAddress address)
  | insert mnemonic argument, c' => c' = c.attempt (c.insert mnemonic argument)
  | insertOp op argument, c' => c' = c.attempt (c.insertOp op argument)
  | execute, c' =>
    ∃ limit, (c.execute limit).ending ≠ .unfinished ∧ c' = (c.execute limit).computer

namespace Computer

/-- **Where operations lead** that are carried out one after another. -/
inductive Leads : Computer → List Operation → Computer → Prop
  | nil (c : Computer) : Leads c [] c
  | cons {c c₁ c' : Computer} {op : Operation} {ops : List Operation} (h : op.Leads c c₁)
    (hs : Leads c₁ ops c') : Leads c (op :: ops) c'

/-- **Reachable computers.** -/
def Reachable (c : Computer) : Prop :=
  ∃ (size : Word) (c₀ : Computer) (ops : List Operation), ofSize size = .ok c₀ ∧ Leads c₀ ops c

variable {c c₀ c₁ c' : Computer}

/-! ## Fresh computers -/

theorem one_le_capacityFor (size : Word) : 1 ≤ Store.capacityFor size := by
  unfold Store.capacityFor
  split
  · omega
  · decide

theorem ofSize_eq_ok {size : Word} (h : ofSize size = .ok c) :
    c = ⟨Store.vacant (Store.capacityFor size), 0⟩ := by
  unfold ofSize Store.ofSize at h
  split at h <;> cases h
  rfl

theorem sound_vacant {n : Nat} (h : 1 ≤ n) : Sound ⟨Store.vacant n, 0⟩ where
  size_pos := h
  size_le := by rw [Store.length_vacant]; exact Nat.le_refl n
  pc_le := Nat.zero_le _
  program i hi cell hcell := by rw [Store.peek_vacant] at hcell; cases hcell
  operands i hle hlt := by
    rw [Store.length_vacant] at hlt
    exact absurd hle (Nat.not_le_of_lt hlt)

theorem sound_ofSize {size : Word} (h : ofSize size = .ok c) : c.Sound := by
  rw [ofSize_eq_ok h]
  exact sound_vacant (one_le_capacityFor size)

/-! ## Operations -/

theorem Sound.leads (h : c.Sound) {op : Operation} (hop : op.Leads c c') :
    c'.Sound ∧ c'.size = c.size := by
  cases op with
  | setAddress address =>
    subst hop
    cases hset : c.setAddress address with
    | ok c₁ => exact h.setAddress hset
    | error fault => exact ⟨h, rfl⟩
  | insert mnemonic argument =>
    subst hop
    cases hins : c.insert mnemonic argument with
    | ok c₁ => exact h.insert hins
    | error fault => exact ⟨h, rfl⟩
  | insertOp op argument =>
    subst hop
    cases hins : c.insertOp op argument with
    | ok c₁ => exact h.insertOp hins
    | error fault => exact ⟨h, rfl⟩
  | execute =>
    obtain ⟨limit, -, rfl⟩ := hop
    exact h.execute limit

theorem Leads.sound {ops : List Operation} (hops : Leads c ops c') (h : c.Sound) :
    c'.Sound ∧ c'.size = c.size := by
  induction hops with
  | nil c => exact ⟨h, rfl⟩
  | cons hop hops ih =>
    obtain ⟨h₁, hsize₁⟩ := h.leads hop
    obtain ⟨h', hsize'⟩ := ih h₁
    exact ⟨h', hsize'.trans hsize₁⟩

theorem Leads.append {ops more : List Operation} (h : Leads c ops c₁) (h' : Leads c₁ more c') :
    Leads c (ops ++ more) c' := by
  induction h with
  | nil c => exact h'
  | cons hop hops ih => exact .cons hop (ih h')

theorem Reachable.sound (h : c.Reachable) : c.Sound := by
  obtain ⟨size, c₀, ops, hnew, hops⟩ := h
  exact (hops.sound (sound_ofSize hnew)).1

theorem Reachable.ofSize {size : Word} (h : ofSize size = .ok c) : c.Reachable :=
  ⟨size, c, [], h, .nil c⟩

theorem Reachable.leads (h : c.Reachable) (op : Operation) (hop : op.Leads c c') :
    c'.Reachable := by
  obtain ⟨size, c₀, ops, hnew, hops⟩ := h
  exact ⟨size, c₀, ops ++ [op], hnew, hops.append (.cons hop (.nil c'))⟩

/-! ## Faults of runs -/

/-- **No run of a sound computer fails for an instruction that is malformed.** -/
theorem Sound.fault_of_execute (h : c.Sound) {limit : Nat} {fault : Fault}
    (hfault : (c.execute limit).ending = .failed fault) :
    (∀ pc, fault ≠ .notAnInstruction pc) ∧ (∀ pc, fault ≠ .missingTarget pc) ∧
      ∀ op, fault ≠ .missingArgument op := by
  rcases h.execute_cases limit with ⟨-, ho⟩ | ⟨n, m₁, m₂, ending, -, -, hends, -, ho⟩ |
    ⟨m₁, -, ho⟩
  · rw [ho] at hfault
    cases hfault
    simp
  · rw [ho] at hfault
    subst hfault
    cases hends <;> simp
  · rw [ho] at hfault
    cases hfault

/-- **Every computer that comes from a fresh one is sound.** It has the size it was constructed
with, and its runs never fail for a bare value in place of an instruction, a call without a target,
or a push without a value. -/
theorem sound_of_leads (size : Word) (hsize : 24 * size.toInt ≤ Int64.maxValue.toInt) :
    ∃ c₀, ofSize size = .ok c₀ ∧ ∀ ops c, Leads c₀ ops c →
      c.Sound ∧ c.size = c₀.size ∧ c.size = Store.capacityFor size ∧
        ∀ limit fault, (c.execute limit).ending = .failed fault →
          (∀ pc, fault ≠ .notAnInstruction pc) ∧ (∀ pc, fault ≠ .missingTarget pc) ∧
            ∀ op, fault ≠ .missingArgument op := by
  have hmax : Int64.maxValue.toInt = 0x7FFFFFFFFFFFFFFF := rfl
  have hfits : Store.slotBytes * Store.capacityFor size ≤ Store.maxBytes := by
    unfold Store.capacityFor Store.slotBytes Store.maxBytes
    split
    · omega
    · decide
  have hnew : ofSize size = .ok ⟨Store.vacant (Store.capacityFor size), 0⟩ := by
    rw [Computer.ofSize, Store.ofSize, if_pos hfits]
    rfl
  refine ⟨_, hnew, fun ops c hops => ?_⟩
  obtain ⟨hsound, hsame⟩ := hops.sound (sound_ofSize hnew)
  exact ⟨hsound, hsame, hsame, fun limit fault => hsound.fault_of_execute⟩

/-- A run leaves a value behind the one addressable slot, an instruction is written over it, and a
further run cannot start. -/
theorem sound_of_leads_overwritten_value :
    24 * (1 : Word).toInt ≤ Int64.maxValue.toInt ∧ ∃ c₀, ofSize 1 = .ok c₀ ∧
      Leads c₀
        [.insertOp .push (some 5), .setAddress 0, .execute, .insert "STOP".toList none, .execute]
        ⟨⟨1, #[some (.instruction .push (some 5)), some (.instruction .stop none)]⟩, 2⟩ ∧
      Sound ⟨⟨1, #[some (.instruction .push (some 5)), some (.instruction .stop none)]⟩, 2⟩ := by
  refine ⟨by decide, ?_⟩
  obtain ⟨c₀, hnew, hall⟩ := sound_of_leads 1 (by decide)
  obtain rfl := ofSize_eq_ok hnew
  refine ⟨_, hnew, (fun hleads => ⟨hleads, (hall _ _ hleads).1⟩) ?_⟩
  exact .cons rfl <| .cons rfl <| .cons ⟨2, by decide, rfl⟩ <| .cons rfl <|
    .cons ⟨0, by decide, rfl⟩ (.nil _)

end Computer

end CellMachine
