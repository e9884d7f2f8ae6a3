import CellMachine.Proofs.Computer.StackMachine

/-! # Steps and traces

What one step of the stack machine can do is said once, by one case for each way in which a run can
go on (`Proceeds`) and one for each way in which it can end (`Ends`). Every invariant of runs is
proved by these cases and carried along the trace of a run.

* `proceeds_of_step`, `ends_of_step`: every step is one of these cases. `step_of_proceeds`,
  `step_of_ends`: every one of these cases is a step.
* `Config.after`: the state of a run after a number of cycles. `Config.after_add`: traces compose.
* `Config.run_cases`: a run ends with the cycle that halts it, or is cut off at its limit.
* `Config.after_induction`: what a cycle keeps, a trace keeps.
* `after_config`: the trace of a computer that shows a machine shows machines with the same
  program.
* `ends_of_run`: a run that ends does so from a machine that it has come to.
* `run_map`: a change of machines that goes along with each step goes along with the run. -/

namespace CellMachine

namespace StackMachine

/-- The instruction under the program counter. -/
def current? (m : StackMachine) : Option Instruction := (m.program[m.pc]?).join

/-- **How a run goes on.** -/
inductive Proceeds (m : StackMachine) : StackMachine → Prop
  | vacant (h : m.program[m.pc]? = some none) : Proceeds m { m with pc := m.pc + 1 }
  | push (w : Word) (h : m.current? = some (.push w)) :
    Proceeds m { m with stack := .value w :: m.stack, pc := m.pc + 1 }
  | mult (a b : Word) (rest : List Cell) (h : m.current? = some .mult)
    (hstack : m.stack = .value a :: .value b :: rest) :
    Proceeds m { m with
      stack := .value (Int64.ofInt (a.toInt * b.toInt)) :: rest
      pc := m.pc + 1
      payload := some (Int64.ofInt (a.toInt * b.toInt)) }
  | print (w : Word) (rest : List Cell) (h : m.current? = some .print)
    (hstack : m.stack = .value w :: rest) :
    Proceeds m { m with
      stack := rest
      pc := m.pc + 1
      payload := some w
      printed := m.printed.push w }
  | call (w : Word) (target : Nat) (h : m.current? = some (.call w)) (hw : w.toInt = target)
    (hlt : target < m.size) : Proceeds m { m with pc := target, payload := some w }
  | ret (w : Word) (rest : List Cell) (target : Nat) (h : m.current? = some .ret)
    (hstack : m.stack = .value w :: rest) (hw : w.toInt = target) (hlt : target < m.size) :
    Proceeds m { m with stack := rest, pc := target, payload := some w }

/-- **How a run ends.** -/
inductive Ends (m : StackMachine) : StackMachine → Ending → Prop
  | passed (h : m.size ≤ m.pc) : Ends m m (.finished m.payload)
  | stop (h : m.current? = some .stop) : Ends m m (.finished m.payload)
  | mult (h : m.current? = some .mult)
    (hstack : ∀ a b rest, m.stack ≠ .value a :: .value b :: rest) :
    Ends m { m with stack := m.stack.drop 2 } (.failed (.missingFactors m.pc))
  | print (h : m.current? = some .print) (hstack : ∀ w rest, m.stack ≠ .value w :: rest) :
    Ends m { m with stack := m.stack.drop 1 } (.failed (.missingOutput m.pc))
  | call (w : Word) (h : m.current? = some (.call w)) (hw : ¬ (0 ≤ w.toInt ∧ w.toInt < m.size)) :
    Ends m m (.failed (.callOutOfBounds m.pc w))
  | ret (h : m.current? = some .ret) (hstack : ∀ w rest, m.stack ≠ .value w :: rest) :
    Ends m { m with stack := m.stack.drop 1 } (.failed (.missingReturn m.pc))
  | retOut (w : Word) (rest : List Cell) (h : m.current? = some .ret)
    (hstack : m.stack = .value w :: rest) (hw : ¬ (0 ≤ w.toInt ∧ w.toInt < m.size)) :
    Ends m { m with stack := m.stack.drop 1 } (.failed (.returnOutOfBounds m.pc w))

variable {m m' : StackMachine} {ending : Ending}

theorem current?_of_getElem? {i : Instruction} (h : m.program[m.pc]? = some (some i)) :
    m.current? = some i := by
  rw [current?, h]; rfl

theorem getElem?_of_current? {i : Instruction} (h : m.current? = some i) :
    m.program[m.pc]? = some (some i) := by
  rw [current?, Option.join_eq_some_iff] at h
  exact h

theorem pc_lt_of_current? {i : Instruction} (h : m.current? = some i) : m.pc < m.size := by
  obtain ⟨hlt, -⟩ := List.getElem?_eq_some_iff.mp (getElem?_of_current? h)
  exact hlt

theorem starved_iff : m.starved ↔ ∃ i, m.current? = some i ∧ m.stack.length < i.operands := by
  unfold starved
  constructor
  · intro h
    split at h
    · rename_i i hi
      exact ⟨i, current?_of_getElem? hi, by simpa using h⟩
    · exact absurd h (by simp)
  · rintro ⟨i, hi, hlt⟩
    rw [getElem?_of_current? hi]
    simpa using hlt

theorem proceeds_of_step (h : m.step = .next m') : m.Proceeds m' := by
  unfold step at h
  split at h
  · cases h
  · rename_i hslot
    cases h
    exact .vacant hslot
  rename_i i hslot
  have hi := current?_of_getElem? hslot
  cases i with
  | mult =>
    simp only [perform, mult] at h
    split at h
    · rename_i a b rest hstack
      cases h
      exact .mult a b rest hi hstack
    · cases h
  | call w =>
    simp only [perform, call] at h
    split at h
    · rename_i hw
      cases h
      exact .call w _ hi (by omega) (by omega)
    · cases h
  | ret =>
    simp only [perform, ret] at h
    split at h
    · rename_i w rest hstack
      split at h
      · rename_i hw
        cases h
        exact .ret w rest _ hi hstack (by omega) (by omega)
      · cases h
    · cases h
  | stop => cases h
  | print =>
    simp only [perform, print] at h
    split at h
    · rename_i w rest hstack
      cases h
      exact .print w rest hi hstack
    · cases h
  | push w =>
    cases h
    exact .push w hi

theorem ends_of_step (h : m.step = .halt m' ending) : m.Ends m' ending := by
  unfold step at h
  split at h
  · rename_i hslot
    cases h
    exact .passed (List.getElem?_eq_none_iff.mp hslot)
  · cases h
  rename_i i hslot
  have hi := current?_of_getElem? hslot
  cases i with
  | mult =>
    simp only [perform, mult] at h
    split at h
    · cases h
    · rename_i hstack
      cases h
      exact .mult hi hstack
  | call w =>
    simp only [perform, call] at h
    split at h
    · cases h
    · rename_i hw
      cases h
      exact .call w hi hw
  | ret =>
    simp only [perform, ret] at h
    split at h
    · rename_i w rest hstack
      split at h
      · cases h
      · rename_i hw
        cases h
        exact .retOut w rest hi hstack hw
    · rename_i hstack
      cases h
      exact .ret hi hstack
  | stop =>
    cases h
    exact .stop hi
  | print =>
    simp only [perform, print] at h
    split at h
    · cases h
    · rename_i hstack
      cases h
      exact .print hi hstack
  | push w => cases h

theorem step_of_current? {i : Instruction} (h : m.current? = some i) : m.step = m.perform i := by
  rw [step, getElem?_of_current? h]

theorem step_of_proceeds (h : m.Proceeds m') : m.step = .next m' := by
  cases h with
  | vacant h => rw [step, h]
  | push w h => rw [step_of_current? h, perform]
  | mult a b rest h hstack => simp only [step_of_current? h, perform, mult, hstack]
  | print w rest h hstack => simp only [step_of_current? h, perform, print, hstack]
  | call w target h hw hlt =>
    have hin : 0 ≤ w.toInt ∧ w.toInt < m.size := by omega
    have hnat : w.toInt.toNat = target := by omega
    rw [step_of_current? h, perform, call, if_pos hin, hnat]
  | ret w rest target h hstack hw hlt =>
    have hin : 0 ≤ w.toInt ∧ w.toInt < m.size := by omega
    have hnat : w.toInt.toNat = target := by omega
    simp only [step_of_current? h, perform, ret, hstack]
    rw [if_pos hin, hnat]

theorem step_of_ends (h : m.Ends m' ending) : m.step = .halt m' ending := by
  cases h with
  | passed h => rw [step, List.getElem?_eq_none h]
  | stop h => rw [step_of_current? h, perform]
  | mult h hstack =>
    rw [step_of_current? h, perform, mult]
    split
    · rename_i a b rest heq
      exact absurd heq (hstack a b rest)
    · rfl
  | print h hstack =>
    rw [step_of_current? h, perform, print]
    split
    · rename_i w rest heq
      exact absurd heq (hstack w rest)
    · rfl
  | call w h hw =>
    rw [step_of_current? h, perform, call, if_neg hw]
    rfl
  | ret h hstack =>
    rw [step_of_current? h, perform, ret]
    split
    · rename_i w rest heq
      exact absurd heq (hstack w rest)
    · rfl
  | retOut w rest h hstack hw =>
    rw [step_of_current? h, perform, ret]
    split
    · rename_i w' rest' heq
      obtain ⟨rfl, rfl⟩ : w' = w ∧ rest' = rest := by simpa [hstack, eq_comm] using heq
      rw [if_neg hw]
      rfl
    · rename_i hne
      exact absurd hstack (hne w rest)

end StackMachine

/-! ## Traces -/

namespace Config

/-- The state after `n` cycles, if the run has not ended before. -/
def after : Nat → Config → Option Config
  | 0, k => some k
  | n + 1, k =>
    match k.cycle with
    | .next k' => after n k'
    | .halt _ => none

theorem after_succ_of_next {k k' : Config} (h : k.cycle = .next k') (n : Nat) :
    k.after (n + 1) = k'.after n := by
  rw [after, h]

theorem after_add {n : Nat} {k k' : Config} (h : k.after n = some k') (more : Nat) :
    k.after (n + more) = k'.after more := by
  induction n generalizing k with
  | zero =>
    cases h
    rw [Nat.zero_add]
  | succ n ih =>
    rw [after] at h
    split at h
    · rename_i k₁ hk₁
      have hshift : n + 1 + more = n + more + 1 := by omega
      rw [hshift, after_succ_of_next hk₁, ih h]
    · cases h

/-- **A run ends with the cycle that halts it, or is cut off at its limit.** -/
theorem run_cases (limit : Nat) (k : Config) :
    (∃ n < limit, ∃ k', k.after n = some k' ∧ k'.cycle = .halt (run limit k)) ∨
      ∃ k', k.after limit = some k' ∧ run limit k = ⟨k'.computer, k'.printed, .unfinished⟩ := by
  induction limit generalizing k with
  | zero => exact Or.inr ⟨k, rfl, rfl⟩
  | succ limit ih =>
    rw [run_succ]
    cases hk : k.cycle with
    | halt outcome => exact Or.inl ⟨0, Nat.succ_pos _, k, rfl, hk⟩
    | next k₁ =>
      rcases ih k₁ with ⟨n, hn, k', hafter, hhalt⟩ | ⟨k', hafter, hcut⟩
      · exact Or.inl ⟨n + 1, by omega, k', by rw [after_succ_of_next hk, hafter], hhalt⟩
      · exact Or.inr ⟨k', by rw [after_succ_of_next hk, hafter], hcut⟩

theorem after_induction {P : Config → Prop}
    (hstep : ∀ k k', P k → k.cycle = .next k' → P k') {n : Nat} {k k' : Config} (hk : P k)
    (h : k.after n = some k') : P k' := by
  induction n generalizing k with
  | zero =>
    cases h
    exact hk
  | succ n ih =>
    rw [after] at h
    split at h
    · rename_i k₁ hk₁
      exact ih (hstep k k₁ hk hk₁) h
    · cases h

end Config

namespace StackMachine

variable {m m' : StackMachine} {ending : Ending}

theorem step_of_cycle {k : Config} (h : m.config.cycle = .next k) :
    ∃ m', k = m'.config ∧ m.Proceeds m' := by
  rw [cycle_config] at h
  cases hstep : m.step with
  | next m' =>
    rw [hstep] at h
    cases h
    exact ⟨m', rfl, proceeds_of_step hstep⟩
  | halt m' ending =>
    rw [hstep] at h
    cases h

theorem Proceeds.cycle_eq (h : m.Proceeds m') : m.config.cycle = .next m'.config := by
  rw [cycle_config, step_of_proceeds h]
  rfl

theorem ends_of_cycle {o : Outcome} (h : m.config.cycle = .halt o) :
    ∃ m' ending, m.Ends m' ending ∧
      o = ⟨(if m.starved then m'.vacate else m').computer, m'.printed, ending⟩ := by
  rw [cycle_config] at h
  cases hstep : m.step with
  | next m' =>
    rw [hstep] at h
    cases h
  | halt m' ending =>
    rw [hstep] at h
    cases h
    exact ⟨m', ending, ends_of_step hstep, rfl⟩

/-- **The trace of a computer that shows a machine.** It shows machines, and what each step keeps
holds of all of them. -/
theorem after_config {P : StackMachine → Prop} (hstep : ∀ m m', P m → m.Proceeds m' → P m')
    (hm : P m) {n : Nat} {k : Config} (h : m.config.after n = some k) :
    ∃ m', k = m'.config ∧ P m' := by
  refine Config.after_induction (P := fun k => ∃ m', k = m'.config ∧ P m') ?_ ⟨m, rfl, hm⟩ h
  rintro _ k' ⟨m₁, rfl, hm₁⟩ hk'
  obtain ⟨m₂, rfl, hm₂⟩ := step_of_cycle hk'
  exact ⟨m₂, rfl, hstep m₁ m₂ hm₁ hm₂⟩

theorem run_config_cases {P : StackMachine → Prop}
    (hstep : ∀ m m', P m → m.Proceeds m' → P m') (hm : P m) (limit : Nat) :
    (∃ n m₁ m₂ ending, m.config.after n = some m₁.config ∧ P m₁ ∧ m₁.Ends m₂ ending ∧
        m₁.config.cycle = .halt (m.config.run limit) ∧
        m.config.run limit =
          ⟨(if m₁.starved then m₂.vacate else m₂).computer, m₂.printed, ending⟩) ∨
      ∃ m₁, P m₁ ∧ m.config.run limit = ⟨m₁.computer, m₁.printed, .unfinished⟩ := by
  rcases Config.run_cases limit m.config with ⟨n, -, k, hafter, hhalt⟩ | ⟨k, hafter, hcut⟩
  · obtain ⟨m₁, rfl, hm₁⟩ := after_config hstep hm hafter
    obtain ⟨m₂, ending, hends, ho⟩ := ends_of_cycle hhalt
    exact Or.inl ⟨n, m₁, m₂, ending, hafter, hm₁, hends, hhalt, ho⟩
  · obtain ⟨m₁, rfl, hm₁⟩ := after_config hstep hm hafter
    exact Or.inr ⟨m₁, hm₁, hcut⟩

/-- **A run that ends does so from a machine that it has come to.** What every step keeps holds of that
machine. -/
theorem ends_of_run {P : StackMachine → Prop} (hstep : ∀ m m', P m → m.Proceeds m' → P m') (hm : P m)
    {limit : Nat} (h : (m.run limit).2 ≠ .unfinished) :
    ∃ m₁, P m₁ ∧ m₁.Ends (m.run limit).1 (m.run limit).2 := by
  induction limit generalizing m with
  | zero => exact absurd rfl h
  | succ limit ih =>
    rw [run] at h ⊢
    cases hm' : m.step with
    | next m' =>
      rw [hm'] at h
      exact ih (hstep m m' hm (proceeds_of_step hm')) h
    | halt m' ending => exact ⟨m, hm, ends_of_step hm'⟩

/-- **A change of machines that goes along with each step goes along with the run.** It is enough that
it does so on machines with a property that every step keeps, and for the ending of the run. -/
theorem run_map {f : StackMachine → StackMachine} {P : StackMachine → Prop} {limit : Nat} (hm : P m)
    (hstep : ∀ m₁ m₂, P m₁ → m₁.Proceeds m₂ → P m₂)
    (hnext : ∀ m₁ m₂, P m₁ → m₁.Proceeds m₂ → (f m₁).Proceeds (f m₂))
    (hends : ∀ m₁ m₂ ending, P m₁ → m₁.Ends m₂ ending → (m.run limit).2 = ending →
      (f m₁).Ends (f m₂) ending) :
    (f m).run limit = (f (m.run limit).1, (m.run limit).2) := by
  induction limit generalizing m with
  | zero => rfl
  | succ limit ih =>
    cases hm' : m.step with
    | next m' =>
      have hproceeds := proceeds_of_step hm'
      have hrun : m.run (limit + 1) = m'.run limit := by rw [run, hm']
      rw [hrun] at hends ⊢
      rw [run, step_of_proceeds (hnext m m' hm hproceeds)]
      exact ih (hstep m m' hm hproceeds) hends
    | halt m' ending =>
      have hrun : m.run (limit + 1) = (m', ending) := by rw [run, hm']
      have hlast := hends m m' ending hm (ends_of_step hm') (by rw [hrun])
      rw [run, step_of_ends hlast, hrun]

/-! ### What every step keeps -/

theorem Proceeds.program_eq (h : m.Proceeds m') : m'.program = m.program := by
  cases h <;> rfl

theorem Ends.program_eq (h : m.Ends m' ending) : m'.program = m.program := by
  cases h <;> rfl

theorem Ends.pc_eq (h : m.Ends m' ending) : m'.pc = m.pc := by
  cases h <;> rfl

theorem Ends.pc_lt_or_eq (h : m.Ends m' ending) : m.pc < m.size ∨ m' = m := by
  cases h with
  | passed | stop | call => exact Or.inr rfl
  | mult h | print h | ret h | retOut w rest h => exact Or.inl (pc_lt_of_current? h)

theorem Proceeds.pc_le (h : m.Proceeds m') : m'.pc ≤ m.size := by
  cases h with
  | vacant h =>
    obtain ⟨hlt, -⟩ := List.getElem?_eq_some_iff.mp h
    exact hlt
  | push w h => exact pc_lt_of_current? h
  | mult a b rest h => exact pc_lt_of_current? h
  | print w rest h => exact pc_lt_of_current? h
  | call w target h hw hlt => exact Nat.le_of_lt hlt
  | ret w rest target h hstack hw hlt => exact Nat.le_of_lt hlt

theorem Proceeds.mem_stack (h : m.Proceeds m') {cell : Cell} (hcell : cell ∈ m'.stack) :
    cell.IsValue ∨ cell ∈ m.stack := by
  cases h with
  | vacant h => exact Or.inr hcell
  | call w target h => exact Or.inr hcell
  | push w h =>
    rcases List.mem_cons.mp hcell with rfl | hcell
    · exact Or.inl ⟨w, rfl⟩
    · exact Or.inr hcell
  | mult a b rest h hstack =>
    rcases List.mem_cons.mp hcell with rfl | hcell
    · exact Or.inl ⟨_, rfl⟩
    · rw [hstack]; exact Or.inr (by simp [hcell])
  | print w rest h hstack => rw [hstack]; exact Or.inr (List.mem_cons_of_mem _ hcell)
  | ret w rest target h hstack => rw [hstack]; exact Or.inr (List.mem_cons_of_mem _ hcell)

theorem Ends.mem_stack (h : m.Ends m' ending) {cell : Cell} (hcell : cell ∈ m'.stack) :
    cell ∈ m.stack := by
  cases h with
  | passed | stop | call => exact hcell
  | mult | print | ret | retOut => exact List.mem_of_mem_drop hcell

end StackMachine

end CellMachine
