import CellMachine.Proofs.Session.Capture
import CellMachine.Proofs.Session.Sound
import Mathlib.Data.List.Induction

/-! # The front of a session

Variables and routine are the *front* of a session, and behind it is the bench. Nothing that happens
on the bench gets to the front: it is kept just as well by an automaton that has no computer at all,
and for which a call is a line like any other that it does not know.

* `Front`, `Session.front`: fronts, with the variables as a map from names to numbers.
* `Front.Reads`, `Front.Runs`: what the automaton does with a line and with lines one after another.
* `reads_iff`, `runs_iff`: the session and the automaton go the same way, and the automaton has no
  other.
* `Front.LastAssigned`: the last assignment to a variable since the last end of the session.
* `front_of_readLines`: the front of a session that comes from a fresh one. -/

namespace CellMachine

/-- **Fronts.** The numbers that variables stand for, and the routine. -/
structure Front where
  number : Text → Option Int
  routine : Option Routine

namespace Front

/-- The front of a session that has read nothing. -/
def fresh : Front := ⟨fun _ => none, none⟩

/-- A routine is being defined. -/
def Capturing (f : Front) : Prop := ∃ r, f.routine = some r ∧ r.closed = false

/-- **Assignments outside of definitions,** of a number that a word holds. -/
def Assigns (f : Front) (line name : Text) (value : Nat) : Prop :=
  ¬ f.Capturing ∧ Line.Assigns line name value ∧ value ≤ 2 ^ 63 - 1

/-- **What the automaton does with a line.** -/
inductive Reads (f : Front) (line : Text) : Front → Prop where
  /-- The end of the session empties the front. -/
  | exit (h : Text.trim line = "exit()".toList) : Reads f line fresh
  | ignored (h : Text.trim line = [] ∨ (Text.trim line).head? = some '#') : Reads f line f
  /-- While a routine is open, `end` completes it, and other lines are captured. -/
  | closing {name : Text} {body : List Text} (hr : f.routine = some ⟨name, body, false⟩)
      (h : Text.trim line = "end".toList) :
      Reads f line { f with routine := some ⟨name, body, true⟩ }
  | body {name : Text} {body : List Text} (hr : f.routine = some ⟨name, body, false⟩)
      (h : Line.Captured line) :
      Reads f line { f with routine := some ⟨name, body ++ [line], false⟩ }
  /-- Otherwise an assignment overwrites one variable, and `def` opens a new routine. -/
  | assignment {name : Text} {value : Nat} (h : f.Assigns line name value) :
      Reads f line { f with number := fun x => if x = name then some value else f.number x }
  | opening {name : Text} (hopen : ¬ f.Capturing) (h : Line.Opens line name) :
      Reads f line { f with routine := some ⟨name, [], false⟩ }
  /-- All other lines do nothing, calls among them. -/
  | other (hopen : ¬ f.Capturing) (hexit : Text.trim line ≠ "exit()".toList)
      (hassign : ∀ name value, ¬ f.Assigns line name value)
      (hdef : ∀ name, ¬ Line.Opens line name) : Reads f line f

/-- **What the automaton does with lines one after another.** -/
def Runs : Front → List Text → Front → Prop
  | f, [], f' => f' = f
  | f, line :: lines, f'' => ∃ f', f.Reads line f' ∧ Runs f' lines f''

variable {f f' : Front} {line x : Text} {lines : List Text} {value : Nat}

theorem exists_reads (f : Front) (line : Text) : ∃ f', f.Reads line f' := by
  by_cases hexit : Text.trim line = "exit()".toList
  · exact ⟨_, .exit hexit⟩
  by_cases hignored : Text.trim line = [] ∨ (Text.trim line).head? = some '#'
  · exact ⟨_, .ignored hignored⟩
  by_cases hopen : f.Capturing
  · obtain ⟨⟨name, body, closed⟩, hr, rfl⟩ := hopen
    by_cases hend : Text.trim line = "end".toList
    · exact ⟨_, .closing hr hend⟩
    · obtain ⟨hnil, hcomment⟩ := not_or.mp hignored
      exact ⟨_, .body hr ⟨hnil, hcomment, hexit, hend⟩⟩
  by_cases hassign : ∃ name value, f.Assigns line name value
  · obtain ⟨name, value, h⟩ := hassign
    exact ⟨_, .assignment h⟩
  by_cases hdef : ∃ name, Line.Opens line name
  · obtain ⟨name, h⟩ := hdef
    exact ⟨_, .opening hopen h⟩
  · exact ⟨_, .other hopen hexit (fun name value h => hassign ⟨name, value, h⟩)
      fun name h => hdef ⟨name, h⟩⟩

end Front

namespace Session

open Reply

variable {limit : Nat} {s s' : Session} {f : Front} {line : Text} {lines : List Text}
  {out : List Record}

/-- **The front of a session.** -/
def front (s : Session) : Front := ⟨fun x => (s.value? x).map Int64.toInt, s.routine⟩

theorem number_front (s : Session) (x : Text) :
    s.front.number x = (s.value? x).map Int64.toInt := rfl

theorem isCapturing_iff : s.isCapturing ↔ s.front.Capturing := by
  cases hr : s.routine with
  | none => simp [isCapturing, Line.capturing, Front.Capturing, front, hr]
  | some r => simp [isCapturing, Line.capturing, Routine.isOpen, Front.Capturing, front, hr]

theorem capturing_eq_false (h : ¬ s.front.Capturing) : Line.capturing s.routine = false := by
  by_contra hopen
  have hcapturing : s.isCapturing = true := by simpa [isCapturing] using hopen
  exact h (isCapturing_iff.mp hcapturing)

/-! ## One line -/

theorem front_assign (s : Session) (name : Text) (w : Word) :
    front { s with vars := s.vars.assign name w } =
      { s.front with number := fun x => if x = name then some w.toInt else s.front.number x } := by
  simp only [front, Front.mk.injEq, and_true]
  funext x
  simp only [value?, Variables.value?_assign]
  split_ifs <;> rfl

theorem front_of_call (h : s.call limit = .ok (s', out)) : s'.front = s.front := by
  rw [call] at h
  split at h
  · cases h
    rfl
  · obtain ⟨bench, -, rfl⟩ := andThen_silent_eq_ok_iff.mp h
    rfl

/-- Lines that neither assign nor open a definition mean a call or nothing. -/
theorem classify_other (hopen : ¬ s.front.Capturing)
    (hexit : Text.trim line ≠ "exit()".toList)
    (hassign : ∀ name value, ¬ s.front.Assigns line name value)
    (hdef : ∀ name, ¬ Line.Opens line name) :
    Line.classify s.routine line = .ignored ∨ Line.classify s.routine line = .call ∨
      Line.classify s.routine line = .unrecognized := by
  cases hline : Line.isMeaningful line with
  | false => exact Or.inl (Line.classify_of_not_meaningful hexit hline)
  | true =>
    rw [Line.classify_of_meaningful hexit hline, capturing_eq_false hopen,
      if_neg Bool.false_ne_true, Line.statement]
    cases hread : Line.assignment? (Text.trim line) with
    | some named =>
      have hlarge : ¬ named.2 ≤ 2 ^ 63 - 1 := fun hvalue =>
        hassign named.1 named.2 ⟨hopen, Line.assignment?_trim_iff.mp hread, hvalue⟩
      have hw : Word.ofInt? named.2 = none := by
        simpa using mt (Word.ofInt?_natCast named.2).mp hlarge
      exact Or.inr (Or.inr (by simp [hw]))
    | none =>
      cases hopening : Line.opening? (Text.trim line) with
      | some name => exact absurd (Line.opening?_trim_iff.mp hopening) (hdef name)
      | none =>
        dsimp only
        split_ifs
        · exact Or.inr (Or.inl rfl)
        · exact Or.inr (Or.inr rfl)

theorem front_of_reads (h : s.front.Reads line f)
    (hread : s.readLine limit line = .ok (s', out)) : s'.front = f := by
  cases h with
  | exit h =>
    have hclass : Line.classify s.routine line = .exit := by rw [Line.classify, if_pos h]
    rw [readLine, hclass] at hread
    cases hread
    rfl
  | ignored h =>
    have hline := Line.isMeaningful_eq_false_iff.mpr h
    rw [readLine_of_not_meaningful limit s line hline] at hread
    cases hread
    rfl
  | closing hr h =>
    rw [readLine_end limit hr rfl h] at hread
    cases hread
    rfl
  | @body name body hr h =>
    obtain ⟨hnil, hcomment, hexit, hend⟩ := h
    have hline : Line.isMeaningful line = true := by
      by_contra hnot
      exact (Line.isMeaningful_eq_false_iff.mp (by simpa using hnot)).elim hnil hcomment
    have hcaptured : Routine.captured ⟨name, body, false⟩ [line] = ⟨name, body ++ [line], false⟩ := by
      simp [Routine.captured, hline]
    rw [readLine_of_open limit hr rfl hexit hend, hcaptured] at hread
    cases hread
    rfl
  | assignment h =>
    obtain ⟨hopen, hassigns, hvalue⟩ := h
    obtain ⟨w, hw⟩ := Option.isSome_iff_exists.mp ((Word.ofInt?_natCast _).mpr hvalue)
    rw [readLine, Line.classify_of_assigns hassigns (capturing_eq_false hopen), hw] at hread
    cases hread
    rw [front_assign, Word.toInt_of_ofInt? hw]
  | opening hopen h =>
    rw [readLine, Line.classify_of_opens h (capturing_eq_false hopen)] at hread
    cases hread
    rfl
  | other hopen hexit hassign hdef =>
    rcases classify_other hopen hexit hassign hdef with hm | hm | hm
    · rw [readLine, hm] at hread
      cases hread
      rfl
    · rw [readLine, hm] at hread
      exact front_of_call hread
    · rw [readLine, hm] at hread
      cases hread
      rfl

/-- **One line:** the automaton goes where the session goes, and nowhere else. -/
theorem reads_iff (hread : s.readLine limit line = .ok (s', out)) :
    s.front.Reads line f ↔ f = s'.front := by
  constructor
  · intro h
    exact (front_of_reads h hread).symm
  · rintro rfl
    obtain ⟨f, hf⟩ := Front.exists_reads s.front line
    rw [front_of_reads hf hread]
    exact hf

theorem runs_iff (hread : s.readLines limit lines = .ok (s', out)) :
    s.front.Runs lines f ↔ f = s'.front := by
  induction lines generalizing s out with
  | nil =>
    cases hread
    exact Iff.rfl
  | cons line lines ih =>
    obtain ⟨s₁, out₁, out₂, hline, hlines, -⟩ := andThen_eq_ok_iff.mp hread
    rw [← ih hlines, Front.Runs]
    simp only [reads_iff hline, exists_eq_left]

end Session

namespace Front

/-! ## The last assignment -/

/-- **The line that follows `before` assigns** to `x`, and no routine is being defined. -/
def AssignedAt (before : List Text) (line x : Text) (value : Nat) : Prop :=
  ∃ f, fresh.Runs before f ∧ f.Assigns line x value

/-- **The last assignment** to `x` among lines, with no end of the session behind it. -/
def LastAssigned (lines : List Text) (x : Text) (value : Nat) : Prop :=
  ∃ before line behind, lines = before ++ line :: behind ∧ AssignedAt before line x value ∧
    (∀ l ∈ behind, Text.trim l ≠ "exit()".toList) ∧
    ∀ between l later value', behind = between ++ l :: later →
      ¬ AssignedAt (before ++ line :: between) l x value'

variable {f f' : Front} {line x : Text} {lines : List Text} {value : Nat}

theorem lastAssigned_append_singleton : LastAssigned (lines ++ [line]) x value ↔
    AssignedAt lines line x value ∨ Text.trim line ≠ "exit()".toList ∧
      (∀ value', ¬ AssignedAt lines line x value') ∧ LastAssigned lines x value := by
  constructor
  · rintro ⟨before, l, behind, hsplit, hassigned, hexit, hlater⟩
    rcases List.eq_nil_or_concat behind with rfl | ⟨behind, last, rfl⟩
    · obtain ⟨rfl, hl⟩ := List.append_inj' hsplit rfl
      obtain rfl := List.singleton_inj.mp hl
      exact Or.inl hassigned
    · have hsplit' : lines ++ [line] = (before ++ l :: behind) ++ [last] := by simpa using hsplit
      obtain ⟨rfl, hl⟩ := List.append_inj' hsplit' rfl
      obtain rfl := List.singleton_inj.mp hl
      refine Or.inr ⟨hexit line (by simp), fun value' => hlater behind line [] value' (by simp),
        before, l, behind, rfl, hassigned, fun l' hl' => hexit l' (by simp [hl']), ?_⟩
      intro between l' later value' hbehind
      exact hlater between l' (later ++ [line]) value' (by simp [hbehind])
  · rintro (hassigned | ⟨hexit, hnot, before, l, behind, rfl, hassigned, hexits, hlater⟩)
    · exact ⟨lines, line, [], rfl, hassigned, nofun, fun between l later _ h => by simp at h⟩
    · refine ⟨before, l, behind ++ [line], by simp, hassigned, fun l' hl' => ?_, ?_⟩
      · rcases List.mem_append.mp hl' with hl' | hl'
        · exact hexits l' hl'
        · rw [List.mem_singleton.mp hl']
          exact hexit
      · intro between l' later value' hbehind
        rcases List.eq_nil_or_concat later with rfl | ⟨later, last, rfl⟩
        · obtain ⟨rfl, hl⟩ := List.append_inj' hbehind rfl
          obtain rfl := List.singleton_inj.mp hl
          exact hnot value'
        · have hbehind' : behind ++ [line] = (between ++ l' :: later) ++ [last] := by
            simpa using hbehind
          obtain ⟨rfl, -⟩ := List.append_inj' hbehind' rfl
          exact hlater between l' later value' rfl

theorem Reads.number_eq_iff (h : f.Reads line f') : f'.number x = some (value : Int) ↔
    f.Assigns line x value ∨ Text.trim line ≠ "exit()".toList ∧
      (∀ value', ¬ f.Assigns line x value') ∧ f.number x = some (value : Int) := by
  -- lines that leave the variable alone
  have hkept : Text.trim line ≠ "exit()".toList → (∀ value', ¬ f.Assigns line x value') →
      (f.number x = some (value : Int) ↔ f.Assigns line x value ∨
        Text.trim line ≠ "exit()".toList ∧ (∀ value', ¬ f.Assigns line x value') ∧
          f.number x = some (value : Int)) := by
    intro hexit hnot
    constructor
    · intro hnumber
      exact Or.inr ⟨hexit, hnot, hnumber⟩
    · rintro (hassigns | ⟨-, -, hnumber⟩)
      · exact absurd hassigns (hnot value)
      · exact hnumber
  cases h with
  | exit h =>
    refine iff_of_false nofun ?_
    rintro (⟨-, hassigns, -⟩ | ⟨hexit, -⟩)
    · exact hassigns.trim_ne_exit h
    · exact hexit h
  | ignored h =>
    have hline := Line.isMeaningful_eq_false_iff.mpr h
    refine hkept (fun hexit => ?_) fun value' hassigns => ?_
    · rw [hexit] at h
      exact absurd h (by decide)
    · rw [hassigns.2.1.isMeaningful] at hline
      cases hline
  | closing hr h =>
    refine hkept (fun hexit => ?_) fun value' hassigns => hassigns.1 ⟨_, hr, rfl⟩
    rw [hexit] at h
    exact absurd h (by decide)
  | body hr h => exact hkept h.2.2.1 fun value' hassigns => hassigns.1 ⟨_, hr, rfl⟩
  | @assignment name number h =>
    by_cases hx : x = name
    · subst hx
      have hnumber : some (number : Int) = some (value : Int) ↔ f.Assigns line x value := by
        constructor
        · intro heq
          obtain rfl : number = value := by simpa using heq
          exact h
        · intro hassigns
          rw [(h.2.1.unique hassigns.2.1).2]
      dsimp only
      rw [if_pos rfl, hnumber, or_iff_left fun hnot => hnot.2.1 number h]
    · dsimp only
      rw [if_neg hx]
      exact hkept h.2.1.trim_ne_exit fun value' hassigns => hx (h.2.1.unique hassigns.2.1).1
  | opening hopen h =>
    exact hkept h.trim_ne_exit fun value' hassigns => h.not_assigns hassigns.2.1
  | other hopen hexit hassign hdef => exact hkept hexit fun value' => hassign x value'

end Front

namespace Session

open Reply

variable {limit : Nat} {s : Session} {lines : List Text} {out : List Record}

theorem assignedAt_iff {line x : Text} {value : Nat}
    (hread : fresh.readLines limit lines = .ok (s, out)) :
    Front.AssignedAt lines line x value ↔ s.front.Assigns line x value := by
  have hruns : ∀ f, Front.fresh.Runs lines f ↔ f = s.front := fun f => runs_iff hread
  simp only [Front.AssignedAt, hruns, exists_eq_left]

/-- **A variable stands for the number that was last assigned to it.** -/
theorem number_eq_iff {x : Text} {value : Nat}
    (hread : fresh.readLines limit lines = .ok (s, out)) :
    s.front.number x = some (value : Int) ↔ Front.LastAssigned lines x value := by
  induction lines using List.reverseRecOn generalizing s out with
  | nil =>
    cases hread
    refine iff_of_false nofun ?_
    rintro ⟨before, line, behind, hsplit, -⟩
    simp at hsplit
  | append_singleton lines line ih =>
    obtain ⟨s₁, s₂, out₁, out₂, out₃, hlines, hline, hnil, -⟩ := readLines_split hread
    cases hnil
    have hreads : s₁.front.Reads line s.front := (reads_iff hline).mpr rfl
    rw [hreads.number_eq_iff, Front.lastAssigned_append_singleton, ih hlines]
    simp only [assignedAt_iff hlines]

/-- **Nothing that happens on the bench gets to the front.** When a fresh session has answered lines,
the automaton that reads the same lines and has no computer ends in the front of the session, and
nowhere else; with it, whether a routine is being defined. A variable has the value that was last
assigned to it outside of definitions and since the last end of the session, and none if there was
no such assignment. -/
theorem front_of_readLines (hread : fresh.readLines limit lines = .ok (s, out)) :
    (∀ f, Front.fresh.Runs lines f ↔ f = s.front) ∧ (s.isCapturing ↔ s.front.Capturing) ∧
      ∀ x w, s.value? x = some w ↔
        ∃ value : Nat, w.toInt = value ∧ Front.LastAssigned lines x value := by
  have hsound : s.Sound := (ensures_feed (ensures_readLine limit) lines sound_fresh s out hread).1
  refine ⟨fun f => runs_iff hread, isCapturing_iff, fun x w => ?_⟩
  constructor
  · intro hw
    obtain ⟨value, hvalue⟩ := Int.eq_ofNat_of_zero_le (hsound.vars _ (mem_of_value? hw)).2.1
    refine ⟨value, hvalue, (number_eq_iff hread).mp ?_⟩
    rw [number_front, hw, Option.map_some, ← hvalue]
  · rintro ⟨value, hvalue, hlast⟩
    obtain ⟨w', hw', heq⟩ := Option.map_eq_some_iff.mp ((number_eq_iff hread).mpr hlast)
    rw [hw', Int64.toInt_inj.mp (heq.trans hvalue.symm)]

/-- Lines that assign where it counts and where it does not: before an end of the session, in a
definition, and a number that no word holds. The call in between fails. -/
def assigningLines : List Text :=
  ["x = 1".toList, "exit()".toList, "x = 2".toList, "def f".toList, "x = 3".toList,
    "c = Computer.new(1)".toList, "c.set_address(x)".toList, "end".toList, "f".toList,
    "x = 9223372036854775808".toList, "f = Computer.new(1)".toList]

theorem front_of_readLines_assigning : ∃ s out,
    fresh.readLines 0 assigningLines = .ok (s, out) ∧
      out = [.ended, .failure (Fault.counterOutOfBounds 2 1).message] ∧
      Front.fresh.Runs assigningLines s.front ∧ ¬ s.front.Capturing ∧
      Front.LastAssigned assigningLines "x".toList 2 := by
  obtain ⟨s, out, hread, hout, hx, hcapturing⟩ : ∃ s out,
      fresh.readLines 0 assigningLines = .ok (s, out) ∧
        out = [.ended, .failure (Fault.counterOutOfBounds 2 1).message] ∧
        s.value? "x".toList = some 2 ∧ s.isCapturing = false := ⟨_, _, rfl, rfl, rfl, rfl⟩
  obtain ⟨hruns, hopen, hvalue⟩ := front_of_readLines hread
  obtain ⟨value, htwo, hlast⟩ := (hvalue _ 2).mp hx
  obtain rfl : 2 = value := Int.ofNat.inj htwo
  refine ⟨s, out, hread, hout, (hruns _).mpr rfl, fun hfront => ?_, hlast⟩
  rw [hopen.mpr hfront] at hcapturing
  cases hcapturing

end Session

end CellMachine
