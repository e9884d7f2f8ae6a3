import CellMachine.Proofs.Computer.Frame
import CellMachine.Proofs.Program.StraightLine

/-! # Subroutines

A computer has no stack of return addresses. A program that calls a subroutine pushes the address to
return to, then the arguments, and calls; the subroutine takes the arguments and leaves the return
address on top, where its return finds it. The return address and all operands there were before it lie
under the arguments while the subroutine is at work, and it does not touch them.

* `Computer.Holds`, `StackMachine.Contains`: code that stands from an address on, in a computer and in
  the program of a machine; `Sound.contains`: the two go together.
* `step_eq_ok_cases`: all that an instruction can do that does not end a fold.
* `Worksheet.resume`: a worksheet after other work; `fold_resume`: a fold that succeeds on a worksheet
  does so after other work. `fold_pushes`: the fold over a list of pushes.
* `after_fold`: where a straight line stands in a program, the trace of a run follows its fold, over
  whatever lies below its values.
* `subroutine_returns`: a call of a subroutine comes back, with all as it was before. -/

namespace CellMachine

/-! ## Code at an address -/

/-- The program **contains** code from an address on. -/
def StackMachine.Contains (program : List (Option Instruction)) (address : Nat)
    (code : List Instruction) : Prop :=
  code.map some <+: program.drop address

/-- The computer **holds** code from an address on: it stands there in addressable slots. -/
def Computer.Holds (c : Computer) (address : Nat) (code : List Instruction) : Prop :=
  ∀ j < code.length,
    address + j < c.size ∧ c.store.peek (address + j) = (code[j]?).map Instruction.cell

instance (c : Computer) (address : Nat) (code : List Instruction) :
    Decidable (c.Holds address code) :=
  inferInstanceAs (Decidable (∀ j < code.length,
    address + j < c.size ∧ c.store.peek (address + j) = (code[j]?).map Instruction.cell))

namespace StackMachine

variable {program : List (Option Instruction)} {address : Nat} {code more : List Instruction}
  {i : Instruction}

theorem Contains.left (h : Contains program address (code ++ more)) :
    Contains program address code := by
  refine List.IsPrefix.trans ?_ h
  rw [List.map_append]
  exact List.prefix_append _ _

theorem Contains.right (h : Contains program address (code ++ more)) :
    Contains program (address + code.length) more := by
  obtain ⟨rest, hrest⟩ := h
  have hdrop : program.drop (address + code.length) = more.map some ++ rest := by
    rw [← List.drop_drop, ← hrest, List.map_append, List.append_assoc]
    exact List.drop_left' (List.length_map _)
  exact ⟨rest, hdrop.symm⟩

theorem Contains.head (h : Contains program address (i :: code)) :
    program[address]? = some (some i) := by
  obtain ⟨rest, hrest⟩ := h
  rw [← List.head?_drop, ← hrest]
  rfl

theorem Contains.tail (h : Contains program address (i :: code)) :
    Contains program (address + 1) code :=
  right (List.singleton_append ▸ h)

end StackMachine

theorem Computer.Sound.contains {c : Computer} (h : c.Sound) {address : Nat} {code : List Instruction}
    (hcode : c.Holds address code) : StackMachine.Contains c.machine.program address code := by
  refine List.prefix_iff_getElem?.mpr fun j hj => ?_
  rw [List.length_map] at hj
  obtain ⟨hlt, hpeek⟩ := hcode j hj
  rw [List.getElem?_drop, h.getElem?_machine hlt, hpeek, List.getElem?_eq_getElem hj]
  simp

/-! ## Folds after other work -/

namespace Worksheet

/-- **The worksheet after other work,** which has produced a payload and printed something. -/
def resume (e : Worksheet) (payload : Option Word) (before : Array Word) : Worksheet :=
  ⟨e.values, payload, before ++ e.printed⟩

variable {e e' : Worksheet}

/-- **All that an instruction can do** that does not end the fold. -/
theorem step_eq_ok_cases {i : Nat} {s : Straight} (h : e.step i s = .ok e') :
    (∃ w, s = .push w ∧ e' = { e with values := w :: e.values }) ∨
      (∃ a b rest, s = .mult ∧ e.values = a :: b :: rest ∧
        e' = { e with
          values := Int64.ofInt (a.toInt * b.toInt) :: rest
          payload := some (Int64.ofInt (a.toInt * b.toInt)) }) ∨
      ∃ w rest, s = .print ∧ e.values = w :: rest ∧ e' = ⟨rest, some w, e.printed.push w⟩ := by
  unfold step at h
  split at h
  · cases h
    exact Or.inl ⟨_, rfl, rfl⟩
  · split at h
    · rename_i a b rest hvalues
      cases h
      exact Or.inr (Or.inl ⟨a, b, rest, rfl, hvalues, rfl⟩)
    · cases h
  · split at h
    · rename_i w rest hvalues
      cases h
      exact Or.inr (Or.inr ⟨w, rest, rfl, hvalues, rfl⟩)
    · cases h
  · cases h

theorem step_resume {i : Nat} {s : Straight} (h : e.step i s = .ok e') (payload : Option Word)
    (before : Array Word) :
    ∃ payload', (e.resume payload before).step i s = .ok (e'.resume payload' before) := by
  rcases step_eq_ok_cases h with ⟨w, rfl, rfl⟩ | ⟨a, b, rest, rfl, hvalues, rfl⟩ |
    ⟨w, rest, rfl, hvalues, rfl⟩
  · exact ⟨payload, rfl⟩
  · refine ⟨some (Int64.ofInt (a.toInt * b.toInt)), ?_⟩
    simp only [resume, step, hvalues]
  · refine ⟨some w, ?_⟩
    simp only [resume, step, hvalues, Array.push_append]

theorem fold_resume {code : List (Straight × Nat)} (h : e.fold code = .ok e')
    (payload : Option Word) (before : Array Word) :
    ∃ payload', (e.resume payload before).fold code = .ok (e'.resume payload' before) := by
  induction code generalizing e payload with
  | nil =>
    cases h
    exact ⟨payload, rfl⟩
  | cons order code ih =>
    obtain ⟨s, i⟩ := order
    rw [fold_cons] at h
    cases hstep : e.step i s with
    | error r =>
      rw [hstep] at h
      cases h
    | ok e₁ =>
      rw [hstep] at h
      obtain ⟨payload₁, hstep₁⟩ := step_resume hstep payload before
      obtain ⟨payload', hfold⟩ := ih h payload₁
      refine ⟨payload', ?_⟩
      rw [fold_cons, hstep₁]
      exact hfold

theorem fold_pushes (ws : List Word) (e : Worksheet) (i : Nat) :
    e.fold ((ws.map Straight.push).zipIdx i) = .ok { e with values := ws.reverse ++ e.values } := by
  induction ws generalizing e i with
  | nil => rfl
  | cons w ws ih =>
    have hstep : e.step i (.push w) = .ok { e with values := w :: e.values } := rfl
    rw [List.map_cons, List.zipIdx_cons, fold_cons, hstep]
    dsimp only
    rw [ih]
    simp

/-! ## Straight lines in a program -/

variable {program : List (Option Instruction)} {pc : Nat}

theorem proceeds_of_step_eq_ok {i : Nat} {s : Straight}
    (hslot : program[pc]? = some (some s.instruction)) (h : e.step i s = .ok e') :
    (e.machine program pc).Proceeds (e'.machine program (pc + 1)) := by
  have hcurrent : (e.machine program pc).current? = some s.instruction :=
    StackMachine.current?_of_getElem? hslot
  rcases step_eq_ok_cases h with ⟨w, rfl, rfl⟩ | ⟨a, b, rest, rfl, hvalues, rfl⟩ |
    ⟨w, rest, rfl, hvalues, rfl⟩
  · exact .push w hcurrent
  · have hstack : (e.machine program pc).stack = .value a :: .value b :: rest.map .value := by
      simp [machine, hvalues]
    exact .mult a b _ hcurrent hstack
  · have hstack : (e.machine program pc).stack = .value w :: rest.map .value := by
      simp [machine, hvalues]
    exact .print w _ hcurrent hstack

/-- **Where a straight line stands, the trace follows its fold,** over whatever lies below the values
at hand. -/
theorem after_fold {code : List Straight} {i : Nat}
    (hcode : StackMachine.Contains program pc (code.map Straight.instruction))
    (hfold : e.fold (code.zipIdx i) = .ok e') (below : List Cell) :
    ((e.machine program pc).atop below).config.after code.length =
      some ((e'.machine program (pc + code.length)).atop below).config := by
  induction code generalizing e pc i with
  | nil =>
    cases hfold
    rfl
  | cons s code ih =>
    rw [List.zipIdx_cons, fold_cons] at hfold
    cases hstep : e.step i s with
    | error r =>
      rw [hstep] at hfold
      cases hfold
    | ok e₁ =>
      rw [hstep] at hfold
      have hproceeds := proceeds_of_step_eq_ok hcode.head hstep
      have hpc : pc + (s :: code).length = pc + 1 + code.length := by simp; omega
      rw [List.length_cons, Config.after_succ_of_next (hproceeds.atop below).cycle_eq,
        ih hcode.tail hfold, ← hpc]
      rfl

/-! ## Calls -/

variable {entry : Nat} {address : Word} {arguments : List Word} (below : List Cell)
  (payload : Option Word) (printed : Array Word)

/-- **The caller.** The return address and all that was there before lie under the arguments when the
subroutine is entered. -/
theorem after_caller {caller : Nat} {target : Word}
    (hcode : StackMachine.Contains program caller
      (.push address :: arguments.map Instruction.push ++ [.call target]))
    (htarget : target.toInt = entry) (hentry : entry < program.length) :
    ((machine ⟨[], payload, printed⟩ program caller).atop below).config.after
        (arguments.length + 2) =
      some ((machine ⟨arguments.reverse, some target, printed⟩ program entry).atop
        (.value address :: below)).config := by
  -- the pushes are a straight line of their own
  have hpushes : StackMachine.Contains program caller
      (((address :: arguments).map Straight.push).map Straight.instruction) := by
    rw [List.map_map]
    exact hcode.left
  have hpushed := after_fold hpushes
    (fold_pushes (address :: arguments) ⟨[], payload, printed⟩ 0) below
  have hslot : program[caller + ((address :: arguments).map Straight.push).length]? =
      some (some (.call target)) := by
    have hlast := hcode.right.head
    rw [List.length_cons, List.length_map] at hlast
    rw [List.length_map, List.length_cons]
    exact hlast
  have hcall : StackMachine.Proceeds
      ((machine ⟨(address :: arguments).reverse ++ [], payload, printed⟩ program
        (caller + ((address :: arguments).map Straight.push).length)).atop below)
      ((machine ⟨(address :: arguments).reverse ++ [], some target, printed⟩ program entry).atop
        below) :=
    .call target entry (StackMachine.current?_of_getElem? hslot) htarget hentry
  have hframe : (machine ⟨(address :: arguments).reverse ++ [], some target, printed⟩ program
      entry).atop below =
      (machine ⟨arguments.reverse, some target, printed⟩ program entry).atop
        (.value address :: below) := by
    simp [machine, StackMachine.atop]
  have hlength : arguments.length + 2 = ((address :: arguments).map Straight.push).length + 1 := by
    simp
  rw [hlength, Config.after_add hpushed, ← hframe]
  exact Config.after_succ_of_next hcall.cycle_eq 0

/-- **The subroutine.** It finds the return address again when it has used up its arguments. -/
theorem after_body {body : List Straight} {back : Nat} {last : Option Word} {output : Array Word}
    (hcode : StackMachine.Contains program entry (body.map Straight.instruction ++ [.ret]))
    (hfold : fold ⟨arguments.reverse, none, #[]⟩ body.zipIdx = .ok ⟨[], last, output⟩)
    (haddress : address.toInt = back) (hback : back < program.length) :
    ((machine ⟨arguments.reverse, payload, printed⟩ program entry).atop
        (.value address :: below)).config.after (body.length + 1) =
      some ((machine ⟨[], some address, printed ++ output⟩ program back).atop below).config := by
  obtain ⟨last', hresumed⟩ := fold_resume hfold payload printed
  have hran := after_fold hcode.left hresumed (.value address :: below)
  have hslot : program[entry + body.length]? = some (some .ret) := by
    have hlast := hcode.right.head
    rw [List.length_map] at hlast
    exact hlast
  have hret : StackMachine.Proceeds
      ((machine ⟨[], last', printed ++ output⟩ program (entry + body.length)).atop
        (.value address :: below))
      ((machine ⟨[], some address, printed ++ output⟩ program back).atop below) :=
    .ret address below back (StackMachine.current?_of_getElem? hslot) rfl haddress hback
  have hstart : (⟨arguments.reverse, none, #[]⟩ : Worksheet).resume payload printed =
      ⟨arguments.reverse, payload, printed⟩ := by
    simp [resume]
  rw [hstart] at hran
  rw [Config.after_add hran]
  exact Config.after_succ_of_next hret.cycle_eq 0

end Worksheet

namespace Computer

variable {c : Computer}

theorem Sound.config_eq (h : c.Sound) (pc : Nat) (payload : Option Word) (printed : Array Word) :
    ((Worksheet.machine ⟨[], payload, printed⟩ c.machine.program pc).atop c.machine.stack).config =
      ⟨⟨c.store, pc⟩, payload, printed⟩ := by
  have hstore : Store.ofParts (StackMachine.cells c.machine.program) c.machine.stack = c.store :=
    congrArg Computer.store h.computer_machine
  rw [← hstore]
  rfl

/-- **A subroutine returns.** Suppose a reachable computer holds, from the address `caller` on, a push
of the return address, pushes of arguments and a call of the address `entry`, and from there on a
straight line and a return. If the straight line, folded over the arguments, comes to its end with no
value left, then a run that stands at `caller` comes to stand at the return address, which is also its
payload. It has printed what the fold prints, and the store is the one it had at `caller`, program and
operands alike. -/
theorem subroutine_returns (h : c.Reachable) (arguments : List Word) (body : List Straight)
    {caller entry back : Nat} {address target : Word} {last : Option Word} {output : Array Word}
    (haddress : address.toInt = back) (hback : back < c.size) (htarget : target.toInt = entry)
    (hcaller : c.Holds caller
      (.push address :: arguments.map Instruction.push ++ [.call target]))
    (hbody : c.Holds entry (body.map Straight.instruction ++ [.ret]))
    (hfold : Worksheet.fold ⟨arguments.reverse, none, #[]⟩ body.zipIdx = .ok ⟨[], last, output⟩)
    (payload : Option Word) (printed : Array Word) :
    Config.after (arguments.length + body.length + 3) ⟨⟨c.store, caller⟩, payload, printed⟩ =
      some ⟨⟨c.store, back⟩, some address, printed ++ output⟩ := by
  have hsound := h.sound
  have hsize : c.machine.program.length = c.size := hsound.size_machine
  have hentry : entry < c.size := by
    obtain ⟨hlt, -⟩ := hbody body.length (by simp)
    omega
  have hcalled := Worksheet.after_caller c.machine.stack payload printed
    (hsound.contains hcaller) htarget (by omega)
  have hreturned := Worksheet.after_body c.machine.stack (some target) printed
    (hsound.contains hbody) hfold haddress (by omega)
  have hlength : arguments.length + body.length + 3 = arguments.length + 2 + (body.length + 1) := by
    omega
  rw [← hsound.config_eq caller, hlength, Config.after_add hcalled, hreturned, hsound.config_eq]

/-- A computer whose program multiplies in a subroutine. An earlier run has left the value `9`. -/
def multiplying : Computer :=
  ⟨⟨8, #[some (.instruction .push (some 7)), some (.instruction .push (some 3)),
    some (.instruction .push (some 4)), some (.instruction .call (some 4)),
    some (.instruction .mult none), some (.instruction .print none), some (.instruction .ret none),
    some (.instruction .stop none), some (.value 9)]⟩, 8⟩

theorem reachable_multiplying : multiplying.Reachable :=
  ⟨8, _, [.insertOp .push (some 9), .setAddress 0, .execute, .setAddress 0,
    .insertOp .push (some 7), .insertOp .push (some 3), .insertOp .push (some 4),
    .insertOp .call (some 4), .insertOp .mult none, .insertOp .print none, .insertOp .ret none,
    .insertOp .stop none], rfl,
    .cons rfl <| .cons rfl <| .cons ⟨9, by decide, rfl⟩ <| .cons rfl <| .cons rfl <| .cons rfl <|
      .cons rfl <| .cons rfl <| .cons rfl <| .cons rfl <| .cons rfl <| .cons rfl (.nil _)⟩

/-- The subroutine prints the product of its arguments, and the value that was there is still there. -/
theorem subroutine_returns_multiplying :
    multiplying.Reachable ∧
      multiplying.Holds 0 [.push 7, .push 3, .push 4, .call 4] ∧
      multiplying.Holds 4 [.mult, .print, .ret] ∧
      Worksheet.fold ⟨[4, 3], none, #[]⟩ [(.mult, 0), (.print, 1)] = .ok ⟨[], some 12, #[12]⟩ ∧
      Config.after 7 ⟨⟨multiplying.store, 0⟩, none, #[]⟩ =
        some ⟨⟨multiplying.store, 7⟩, some 7, #[12]⟩ := by
  have hcaller : multiplying.Holds 0 [.push 7, .push 3, .push 4, .call 4] := by decide
  have hbody : multiplying.Holds 4 [.mult, .print, .ret] := by decide
  have hfold : Worksheet.fold ⟨[4, 3], none, #[]⟩ [(.mult, 0), (.print, 1)] =
      .ok ⟨[], some 12, #[12]⟩ := rfl
  refine ⟨reachable_multiplying, hcaller, hbody, hfold, ?_⟩
  exact subroutine_returns reachable_multiplying [3, 4] [.mult, .print] rfl (by decide) rfl hcaller
    hbody hfold none #[]

end Computer

end CellMachine
