import CellMachine.Proofs.Computer.Edit
import CellMachine.Proofs.Session.Records

/-! # The requests of a routine

What the lines of a routine ask for can be read off them before anything is carried out: to put a new
computer on the bench, or an action on the computer that is there. All these requests are carried
out, in their order, whatever the ones before have come to. An action whose operand names no variable
does nothing; the program counter is set, or an instruction is written, in silence; an edit that is
refused leaves the computer as it was and has its fault reported; and a run tells what it printed, and
then its fault if it failed.

* `Action.edit?`, `Edit.Confined`: the edit that an action asks for, and what an edit may change.
* `Action.Effect`: what an action does to a computer and what it emits. `reply_eq_ok_iff_effect`: the
  reply to an action is its effect.
* `Request`, `requests`: what lines ask for.
* `Carried`: requests that are carried out, with the records of each.
* `replay_eq_ok_iff_carried`: to replay lines is to carry out their requests.
* `call_carries_out_requests`: the calls of a routine. -/

namespace CellMachine

open Reply

/-! ## Actions -/

/-- The operand of an action. -/
def Action.operand? : Action → Option Operand
  | setAddress operand => some operand
  | insert _ operand => operand
  | execute => none

/-- **The edit that an action asks for,** with the value of its operand. -/
def Action.edit? (vs : Variables) : Action → Option Edit
  | setAddress operand => (operand.resolve vs).map .setAddress
  | insert mnemonic none => some (.insert mnemonic none)
  | insert mnemonic (some operand) =>
    (operand.resolve vs).map fun argument => .insert mnemonic (some argument)
  | execute => none

/-- **What an edit may change:** the program counter, and an insertion also the one slot on which
the program counter stood. -/
structure Edit.Confined (e : Edit) (c c' : Computer) : Prop where
  store : e.isInsertion = false → c'.store = c.store
  size : c'.size = c.size
  length : c'.store.length = c.store.length
  slot : ∀ i, i ≠ c.pc → c'.store.peek i = c.store.peek i

/-- **What an action does to a computer, and what it emits.** -/
inductive Action.Effect (limit : Nat) (vs : Variables) (c : Computer) :
    Action → Computer → List Record → Prop
  /-- The operand names no variable: nothing happens. -/
  | unnamed {action : Action} {x : Text} (operand : action.operand? = some (.named x))
      (unassigned : vs.value? x = none) : Effect limit vs c action c []
  /-- An edit succeeds in silence. -/
  | edited {action : Action} {e : Edit} {c' : Computer} (edit : action.edit? vs = some e)
      (success : e.result c = .ok c') (confined : e.Confined c c') : Effect limit vs c action c' []
  /-- An edit fails: its fault is reported, and the computer stays as it was. -/
  | refused {action : Action} {e : Edit} {fault : Fault} (edit : action.edit? vs = some e)
      (failure : e.result c = .error fault) :
      Effect limit vs c action c [.failure fault.message]
  /-- A run comes to its end: what it has printed is told. -/
  | ran {payload : Option Word} (ending : (c.execute limit).ending = .finished payload) :
      Effect limit vs c .execute (c.execute limit).computer
        ((c.execute limit).printed.toList.map .printed)
  /-- A run fails: what it has printed is told, and then its fault. -/
  | broke {fault : Fault} (ending : (c.execute limit).ending = .failed fault) :
      Effect limit vs c .execute (c.execute limit).computer
        ((c.execute limit).printed.toList.map .printed ++ [.failure fault.message])

section Actions

variable {limit : Nat} {vs : Variables} {c c' : Computer} {action : Action} {e : Edit}
  {out : List Record}

theorem Edit.confined_of_result (h : e.result c = .ok c') : e.Confined c c' where
  store hsilent := by
    rcases Edit.result_eq_ok_cases h with ⟨-, pc, -, rfl⟩ | ⟨hins, -⟩
    · rfl
    · rw [hsilent] at hins
      cases hins
  size := (Computer.shape_result h).1
  length := (Computer.shape_result h).2
  slot _ hi := Computer.peek_result h fun _ => hi

theorem Operand.resolve_eq_none_iff {operand : Operand} :
    operand.resolve vs = none ↔ ∃ x, operand = .named x ∧ vs.value? x = none := by
  cases operand with
  | literal value => simp [Operand.resolve]
  | named name => simp [Operand.resolve]

/-- **What an action can ask for:** nothing, when its operand names no variable, an edit, or a
run. -/
theorem Action.edit?_cases (vs : Variables) (action : Action) :
    (∃ x, action.operand? = some (.named x) ∧ vs.value? x = none) ∨
      (∃ e, action.edit? vs = some e) ∨ action = .execute := by
  have hvalue : ∀ operand : Operand, (∃ x, operand = .named x ∧ vs.value? x = none) ∨
      ∃ w, operand.resolve vs = some w := by
    intro operand
    cases hw : operand.resolve vs with
    | none => exact Or.inl (Operand.resolve_eq_none_iff.mp hw)
    | some w => exact Or.inr ⟨w, rfl⟩
  rcases action with operand | ⟨mnemonic, _ | operand⟩ | _
  · rcases hvalue operand with ⟨x, rfl, hx⟩ | ⟨w, hw⟩
    · exact Or.inl ⟨x, rfl, hx⟩
    · exact Or.inr (Or.inl ⟨.setAddress w, by rw [Action.edit?, hw]; rfl⟩)
  · exact Or.inr (Or.inl ⟨.insert mnemonic none, rfl⟩)
  · rcases hvalue operand with ⟨x, rfl, hx⟩ | ⟨w, hw⟩
    · exact Or.inl ⟨x, rfl, hx⟩
    · exact Or.inr (Or.inl ⟨.insert mnemonic (some w), by rw [Action.edit?, hw]; rfl⟩)
  · exact Or.inr (Or.inr rfl)

theorem Action.reply_of_unnamed {x : Text} (hoperand : action.operand? = some (.named x))
    (hx : vs.value? x = none) : action.reply limit vs c = .silent c := by
  have hresolve : Operand.resolve vs (.named x) = none := hx
  rcases action with operand | ⟨mnemonic, _ | operand⟩ | _
  · cases hoperand
    rw [Action.reply, hresolve]
  · cases hoperand
  · cases hoperand
    rw [Action.reply, hresolve]
  · cases hoperand

theorem Action.reply_of_edit? (h : action.edit? vs = some e) :
    action.reply limit vs c = settle c (e.result c) := by
  rcases action with operand | ⟨mnemonic, _ | operand⟩ | _
  · obtain ⟨w, hw, rfl⟩ := Option.map_eq_some_iff.mp h
    rw [Action.reply, hw]
    rfl
  · cases h
    rfl
  · obtain ⟨w, hw, rfl⟩ := Option.map_eq_some_iff.mp h
    rw [Action.reply, hw]
    rfl
  · cases h

theorem Action.reply_eq_ok_iff_effect :
    action.reply limit vs c = .ok (c', out) ↔ Effect limit vs c action c' out := by
  constructor
  · intro h
    rcases Action.edit?_cases vs action with ⟨x, hoperand, hx⟩ | ⟨e, hedit⟩ | rfl
    · rw [Action.reply_of_unnamed hoperand hx] at h
      cases h
      exact .unnamed hoperand hx
    · rw [Action.reply_of_edit? hedit] at h
      cases hresult : e.result c with
      | ok c₁ =>
        rw [hresult] at h
        cases h
        exact .edited hedit hresult (Edit.confined_of_result hresult)
      | error fault =>
        rw [hresult] at h
        cases h
        exact .refused hedit hresult
    · rw [Action.reply, Outcome.reply] at h
      cases hend : (c.execute limit).ending with
      | finished payload =>
        rw [hend] at h
        cases h
        exact .ran hend
      | failed fault =>
        rw [hend] at h
        cases h
        exact .broke hend
      | unfinished =>
        rw [hend] at h
        cases h
  · intro h
    cases h with
    | unnamed hoperand hx => exact Action.reply_of_unnamed hoperand hx
    | edited hedit hresult => rw [Action.reply_of_edit? hedit, hresult]; rfl
    | refused hedit hresult => rw [Action.reply_of_edit? hedit, hresult]; rfl
    | ran hend => rw [Action.reply, Outcome.reply, hend]
    | broke hend => rw [Action.reply, Outcome.reply, hend]

end Actions

/-! ## Requests -/

/-- **What a line of a routine asks for.** -/
inductive Request where
  /-- To put a new computer on the bench. -/
  | build (name : Text) (size : Word)
  /-- An action on the computer that is on the bench. -/
  | act (action : Action)
deriving DecidableEq, Repr

/-- **The requests of a line,** given the name of the computer on the bench: a construction of a size
that is a word, or the actions that the links of a chain to that name spell out. -/
def lineRequests (name : Option Text) (line : Text) : List Request :=
  match construction? line with
  | some (built, size) => (Word.ofInt? size).toList.map (.build built)
  | none =>
    (((name.bind fun name => links? name line).getD []).filterMap Action.ofText?).map .act

/-- The name of the computer on the bench after a line. -/
def nameAfter (name : Option Text) (line : Text) : Option Text :=
  match construction? line with
  | some (built, size) => if (Word.ofInt? size).isSome then some built else name
  | none => name

/-- **The requests of lines.** -/
def requests (name : Option Text) : List Text → List Request
  | [] => []
  | line :: lines => lineRequests name line ++ requests (nameAfter name line) lines

/-- **Requests that are carried out,** one after another, with the records of each. -/
inductive Carried (limit : Nat) (vs : Variables) :
    Option Bench → List Request → List (List Record) → Option Bench → Prop
  | nil (bench : Option Bench) : Carried limit vs bench [] [] bench
  | build {bench bench' : Option Bench} {name : Text} {size : Word} {c : Computer}
      {rest : List Request} {outs : List (List Record)} (new : Computer.ofSize size = .ok c)
      (tail : Carried limit vs (some ⟨name, c⟩) rest outs bench') :
      Carried limit vs bench (.build name size :: rest) ([] :: outs) bench'
  | act {bench' : Option Bench} {name : Text} {c c' : Computer} {action : Action}
      {rest : List Request} {out : List Record} {outs : List (List Record)}
      (effect : action.Effect limit vs c c' out)
      (tail : Carried limit vs (some ⟨name, c'⟩) rest outs bench') :
      Carried limit vs (some ⟨name, c⟩) (.act action :: rest) (out :: outs) bench'

section Requests

variable {limit : Nat} {vs : Variables} {bench bench' : Option Bench} {line : Text}
  {lines : List Text} {out : List Record}

theorem ok_iff_carried_nil : (.ok (bench, []) : Reply (Option Bench)) = .ok (bench', out) ↔
    ∃ outs, Carried limit vs bench [] outs bench' ∧ out = outs.flatten := by
  constructor
  · intro h
    cases h
    exact ⟨[], .nil _, rfl⟩
  · rintro ⟨outs, hcarried, rfl⟩
    cases hcarried
    rfl

theorem carried_append_iff {first last : List Request} {outs : List (List Record)} :
    Carried limit vs bench (first ++ last) outs bench' ↔
      ∃ bench₁ outs₁ outs₂, Carried limit vs bench first outs₁ bench₁ ∧
        Carried limit vs bench₁ last outs₂ bench' ∧ outs = outs₁ ++ outs₂ := by
  constructor
  · intro h
    induction first generalizing bench outs with
    | nil => exact ⟨bench, [], outs, .nil bench, h, rfl⟩
    | cons request first ih =>
      cases h with
      | build new tail =>
        obtain ⟨bench₁, outs₁, outs₂, hfirst, hlast, rfl⟩ := ih tail
        exact ⟨bench₁, [] :: outs₁, outs₂, .build new hfirst, hlast, rfl⟩
      | act effect tail =>
        obtain ⟨bench₁, outs₁, outs₂, hfirst, hlast, rfl⟩ := ih tail
        exact ⟨bench₁, _ :: outs₁, outs₂, .act effect hfirst, hlast, rfl⟩
  · rintro ⟨bench₁, outs₁, outs₂, hfirst, hlast, rfl⟩
    induction hfirst with
    | nil => exact hlast
    | build new _ ih => exact .build new (ih hlast)
    | act effect _ ih => exact .act effect (ih hlast)

theorem feed_links_eq_ok_iff_carried {name : Text} {c : Computer} {links : List Text} :
    (feed (linkReply limit vs) c links).onState (fun c => some ⟨name, c⟩) = .ok (bench', out) ↔
      ∃ outs, Carried limit vs (some ⟨name, c⟩) ((links.filterMap Action.ofText?).map .act) outs
        bench' ∧ out = outs.flatten := by
  induction links generalizing c out with
  | nil => exact ok_iff_carried_nil
  | cons link links ih =>
    rw [feed_cons, onState_andThen, linkReply]
    cases hlink : Action.ofText? link with
    | none =>
      rw [List.filterMap_cons_none hlink, ← ih]
      exact iff_of_eq (congrArg (· = _) (silent_andThen c _))
    | some action =>
      rw [List.filterMap_cons_some hlink, List.map_cons, andThen_eq_ok_iff]
      constructor
      · rintro ⟨c', out₁, out₂, hreply, hrest, rfl⟩
        obtain ⟨outs, htail, rfl⟩ := ih.mp hrest
        exact ⟨out₁ :: outs, .act (Action.reply_eq_ok_iff_effect.mp hreply) htail, rfl⟩
      · rintro ⟨outs, hcarried, rfl⟩
        cases hcarried with
        | act effect tail =>
          exact ⟨_, _, _, Action.reply_eq_ok_iff_effect.mpr effect, ih.mpr ⟨_, tail, rfl⟩, rfl⟩

/-- **A construction** carries out the one request that it is, unless its size is no word. -/
theorem construct_eq_ok_iff_carried {name : Text} {size : Nat} :
    construct bench name size = .ok (bench', out) ↔
      ∃ outs, Carried limit vs bench ((Word.ofInt? size).toList.map (.build name)) outs bench' ∧
        out = outs.flatten := by
  rw [construct]
  cases Word.ofInt? size with
  | none => exact ok_iff_carried_nil
  | some w =>
    rw [Option.elim_some]
    cases hnew : Computer.ofSize w with
    | error cause =>
      constructor
      · intro h
        cases h
      · rintro ⟨outs, hcarried, -⟩
        cases hcarried with
        | build new tail =>
          rw [hnew] at new
          cases new
    | ok c =>
      constructor
      · intro h
        cases h
        exact ⟨[[]], .build hnew (.nil _), rfl⟩
      · rintro ⟨outs, hcarried, rfl⟩
        cases hcarried with
        | build new tail =>
          rw [hnew] at new
          cases new
          cases tail
          rfl

theorem replayLine_eq_ok_iff_carried :
    replayLine limit vs bench line = .ok (bench', out) ↔
      ∃ outs, Carried limit vs bench (lineRequests (bench.map Bench.name) line) outs bench' ∧
        out = outs.flatten := by
  rw [replayLine, lineRequests]
  cases construction? line with
  | some named => exact construct_eq_ok_iff_carried
  | none =>
    cases bench with
    | none => exact ok_iff_carried_nil
    | some b =>
      dsimp only [chainReply, Option.map_some, Option.bind_some]
      cases links? b.name line with
      | none => exact ok_iff_carried_nil
      | some links =>
        dsimp only [Option.getD_some]
        rw [andThen_silent]
        exact feed_links_eq_ok_iff_carried

theorem name_of_replayLine (h : replayLine limit vs bench line = .ok (bench', out)) :
    bench'.map Bench.name = nameAfter (bench.map Bench.name) line := by
  rw [replayLine] at h
  rw [nameAfter]
  cases hline : construction? line with
  | some named =>
    rcases named with ⟨built, size⟩
    rw [hline] at h
    obtain ⟨-, ⟨hw, rfl⟩ | ⟨w, c, hw, -, rfl⟩⟩ := construct_cases h
    · simp [hw]
    · simp [hw]
  | none =>
    rw [hline] at h
    cases bench with
    | none =>
      cases h
      rfl
    | some b =>
      dsimp only [chainReply] at h
      split at h
      · cases h
        rfl
      · obtain ⟨c, -, rfl⟩ := andThen_silent_eq_ok_iff.mp h
        rfl

/-- **To replay lines is to carry out their requests.** -/
theorem replay_eq_ok_iff_carried :
    replay limit vs bench lines = .ok (bench', out) ↔
      ∃ outs, Carried limit vs bench (requests (bench.map Bench.name) lines) outs bench' ∧
        out = outs.flatten := by
  induction lines generalizing bench out with
  | nil => exact ok_iff_carried_nil
  | cons line lines ih =>
    rw [replay, feed_cons, andThen_eq_ok_iff, requests]
    constructor
    · rintro ⟨bench₁, out₁, out₂, hline, hlines, rfl⟩
      obtain ⟨outs₁, hfirst, rfl⟩ := replayLine_eq_ok_iff_carried.mp hline
      obtain ⟨outs₂, hlast, rfl⟩ := ih.mp hlines
      rw [name_of_replayLine hline] at hlast
      exact ⟨outs₁ ++ outs₂, carried_append_iff.mpr ⟨bench₁, outs₁, outs₂, hfirst, hlast, rfl⟩,
        List.flatten_append.symm⟩
    · rintro ⟨outs, hcarried, rfl⟩
      obtain ⟨bench₁, outs₁, outs₂, hfirst, hlast, rfl⟩ := carried_append_iff.mp hcarried
      have hline := replayLine_eq_ok_iff_carried.mpr ⟨outs₁, hfirst, rfl⟩
      rw [← name_of_replayLine hline] at hlast
      exact ⟨bench₁, _, _, hline, ih.mpr ⟨outs₂, hlast, rfl⟩, List.flatten_append⟩

end Requests

/-! ## Calls -/

namespace Session

variable {s s' : Session} {r : Routine} {line : Text} {limit : Nat} {out : List Record}

/-- **A call carries out all requests of the routine.** What the routine asks for is settled by its
lines and by the name on the bench, and not by what its requests come to. A call is answered exactly
when all of this can be carried out, one request after the other; then it has emitted the records of
the requests in their order, and the variables and the routine are as they were. -/
theorem call_carries_out_requests (hr : s.routine = some r)
    (hline : Line.classify s.routine line = .call) :
    s.readLine limit line = .ok (s', out) ↔
      s'.vars = s.vars ∧ s'.routine = s.routine ∧
        ∃ outs, Carried limit s.vars s.bench (requests (s.bench.map Bench.name) r.body) outs
          s'.bench ∧ out = outs.flatten := by
  rw [readLine_of_call limit hr hline, andThen_silent_eq_ok_iff, ← replay_eq_ok_iff_carried]
  constructor
  · rintro ⟨bench, hreplay, rfl⟩
    exact ⟨rfl, rfl, hreplay⟩
  · rintro ⟨hvars, hroutine, hreplay⟩
    refine ⟨s'.bench, hreplay, ?_⟩
    rw [← hvars, ← hroutine]

/-- A definition: a link whose operand names no variable, an edit that is refused, and a run that
prints and then fails, each with further links behind it. -/
def faultyDefinition : List Text :=
  ["def f".toList, "c = Computer.new(3)".toList,
    "c.insert(\"PRINT\", x).insert(\"PUSH\", 7).insert(\"PRINT\").set_address(9)".toList,
    "c.insert(\"MULT\").set_address(0).execute().set_address(0).execute()".toList, "end".toList]

/-- All that it asks for. -/
def faultyRequests : List Request :=
  [.build "c".toList 3, .act (.insert "PRINT".toList (some (.named "x".toList))),
    .act (.insert "PUSH".toList (some (.literal 7))), .act (.insert "PRINT".toList none),
    .act (.setAddress (.literal 9)), .act (.insert "MULT".toList none),
    .act (.setAddress (.literal 0)), .act .execute, .act (.setAddress (.literal 0)), .act .execute]

theorem call_carries_out_requests_faulty : ∃ s s' outs,
    fresh.readLines 4 faultyDefinition = .ok (s, []) ∧
      s.readLine 4 "f".toList = .ok (s', outs.flatten) ∧
      Carried 4 s.vars s.bench faultyRequests outs s'.bench ∧
      outs.flatten = [.failure (Fault.counterOutOfBounds 9 3).message, .printed 7,
        .failure (Fault.missingFactors 2).message, .printed 7] := by
  obtain ⟨s, r, s', hs, hr, hcall, hrequests, hline⟩ : ∃ s r s',
      fresh.readLines 4 faultyDefinition = .ok (s, []) ∧ s.routine = some r ∧
      Line.classify s.routine "f".toList = .call ∧
      requests (s.bench.map Bench.name) r.body = faultyRequests ∧
      s.readLine 4 "f".toList = .ok (s', [.failure (Fault.counterOutOfBounds 9 3).message,
        .printed 7, .failure (Fault.missingFactors 2).message, .printed 7]) :=
    ⟨_, _, _, rfl, rfl, rfl, rfl, rfl⟩
  obtain ⟨-, -, outs, hcarried, hout⟩ := (call_carries_out_requests hr hcall).mp hline
  rw [hrequests] at hcarried
  rw [hout] at hline
  exact ⟨s, s', outs, hs, hline, hcarried, hout.symm⟩

end Session

end CellMachine
