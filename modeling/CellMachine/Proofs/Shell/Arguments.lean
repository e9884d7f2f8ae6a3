import CellMachine.Proofs.Shell.Agreement
import Mathlib.Data.List.Induction

/-! # The arguments of a script run

The command `run` goes through its arguments from the left. An option that is no flag for quiet
offends, and so does a path behind another path; the first argument that offends settles the
invocation, and nothing is read. Where none offends there is at most one path. The file at it and
whether there is a flag at all settle the rest, wherever the flags stand and however many they are.

* `Offends`, `Harmless`: what can be wrong with an argument, and arguments with which nothing is.
* `harmless_iff`: harmless arguments are flags and one path at most.
* `runArgs_append`: what is known behind harmless arguments.
* `run_settled_by_arguments`: what each list of arguments leads to. -/

namespace CellMachine

namespace Command

/-! ## Arguments that offend -/

/-- **Paths:** arguments that do not look like options. -/
def IsPath (argument : Text) : Prop := argument.head? ≠ some '-'

instance : DecidablePred IsPath :=
  fun argument => inferInstanceAs (Decidable (argument.head? ≠ some '-'))

/-- **Flags for quiet.** -/
def AsksQuiet (argument : Text) : Prop := argument = "--quiet".toList ∨ argument = "-q".toList

instance : DecidablePred AsksQuiet :=
  fun argument => inferInstanceAs (Decidable (argument = "--quiet".toList ∨ argument = "-q".toList))

/-- **What is wrong with an argument** behind given others, in the words it is refused with. -/
inductive Offends (before : List Text) (argument : Text) : Text → Prop
  | option (hoption : ¬ IsPath argument) (hflag : ¬ AsksQuiet argument) :
    Offends before argument "unknown option".toList
  | second (hpath : IsPath argument) (hbefore : ∃ earlier ∈ before, IsPath earlier) :
    Offends before argument "unexpected argument".toList

/-- **Arguments none of which offends.** -/
def Harmless (args : List Text) : Prop :=
  ∀ before argument wording, before ++ [argument] <+: args → ¬ Offends before argument wording

variable {before args : List Text} {argument path wording : Text}

theorem not_isPath_of_asksQuiet (h : AsksQuiet argument) : ¬ IsPath argument := by
  rcases h with rfl | rfl <;> decide

/-! ### Paths among arguments -/

/-- The arguments that are paths. -/
def paths (args : List Text) : List Text := args.filter fun argument => IsPath argument

theorem paths_concat_of_isPath (h : IsPath argument) (args : List Text) :
    paths (args ++ [argument]) = paths args ++ [argument] := by
  simp [paths, h]

theorem paths_concat_of_not_isPath (h : ¬ IsPath argument) (args : List Text) :
    paths (args ++ [argument]) = paths args := by
  simp [paths, h]

theorem paths_eq_nil_iff : paths args = [] ↔ ∀ argument ∈ args, ¬ IsPath argument := by
  simp [paths, List.filter_eq_nil_iff]

/-! ### Harmless arguments -/

/-- An argument that does not offend is a flag, or the first path. -/
theorem not_offends_iff : (∀ wording, ¬ Offends before argument wording) ↔
    AsksQuiet argument ∨ IsPath argument ∧ ∀ earlier ∈ before, ¬ IsPath earlier := by
  constructor
  · intro h
    by_cases hpath : IsPath argument
    · refine Or.inr ⟨hpath, fun earlier hmem hearlier => ?_⟩
      exact h _ (.second hpath ⟨earlier, hmem, hearlier⟩)
    · exact Or.inl (Decidable.byContradiction fun hflag => h _ (.option hpath hflag))
  · rintro (hquiet | ⟨hpath, hfirst⟩) wording (⟨hoption, hflag⟩ | ⟨hpath', earlier, hmem, hearlier⟩)
    · exact hflag hquiet
    · exact not_isPath_of_asksQuiet hquiet hpath'
    · exact hoption hpath
    · exact hfirst earlier hmem hearlier

theorem harmless_nil : Harmless [] := by
  intro before argument wording h
  simp at h

theorem harmless_concat_iff : Harmless (args ++ [argument]) ↔
    Harmless args ∧ ∀ wording, ¬ Offends args argument wording := by
  constructor
  · intro h
    refine ⟨fun before earlier wording hbefore => ?_,
      fun wording => h args argument wording List.prefix_rfl⟩
    exact h before earlier wording (hbefore.trans (List.prefix_append ..))
  · rintro ⟨hargs, hlast⟩ before last wording hbefore
    rcases List.prefix_concat_iff.mp hbefore with h | h
    · obtain ⟨rfl, hargument⟩ := List.append_inj' h rfl
      obtain rfl := List.singleton_inj.mp hargument
      exact hlast wording
    · exact hargs before last wording h

theorem harmless_iff : Harmless args ↔
    (∀ argument ∈ args, AsksQuiet argument ∨ IsPath argument) ∧ (paths args).length ≤ 1 := by
  induction args using List.reverseRecOn with
  | nil => simp [harmless_nil, paths]
  | append_singleton args argument ih =>
    rw [harmless_concat_iff, ih, not_offends_iff, ← paths_eq_nil_iff, List.forall_mem_append,
      List.forall_mem_singleton]
    by_cases hpath : IsPath argument
    · have hflag : ¬ AsksQuiet argument := fun h => not_isPath_of_asksQuiet h hpath
      rw [paths_concat_of_isPath hpath, List.length_append, List.length_singleton,
        ← List.length_eq_zero_iff]
      simp only [hpath, hflag, false_or, true_and, and_true]
      constructor
      · rintro ⟨⟨hall, -⟩, hnone⟩
        exact ⟨hall, by omega⟩
      · rintro ⟨hall, hone⟩
        exact ⟨⟨hall, by omega⟩, by omega⟩
    · rw [paths_concat_of_not_isPath hpath]
      simp only [hpath, false_and, or_false]
      exact and_right_comm

instance : DecidablePred Harmless := fun _ => decidable_of_iff _ harmless_iff.symm

theorem paths_eq_singleton (h : Harmless args) (hmem : path ∈ args) (hpath : IsPath path) :
    paths args = [path] := by
  have hpaths : path ∈ paths args := List.mem_filter.mpr ⟨hmem, decide_eq_true hpath⟩
  have hone : (paths args).length ≤ 1 := (harmless_iff.mp h).2
  obtain ⟨first, hfirst⟩ := List.length_eq_one_iff.mp
    (Nat.le_antisymm hone (List.length_pos_of_mem hpaths))
  rw [hfirst, List.mem_singleton] at hpaths
  rw [hfirst, hpaths]

theorem exists_offence (h : ¬ Harmless args) : ∃ before argument wording,
    before ++ [argument] <+: args ∧ Harmless before ∧ Offends before argument wording := by
  induction args using List.reverseRecOn with
  | nil => exact absurd harmless_nil h
  | append_singleton args argument ih =>
    by_cases hargs : Harmless args
    · have hoffends : ∃ wording, Offends args argument wording := by
        by_contra hnone
        exact h (harmless_concat_iff.mpr ⟨hargs, not_exists.mp hnone⟩)
      obtain ⟨wording, hoffends⟩ := hoffends
      exact ⟨args, argument, wording, List.prefix_rfl, hargs, hoffends⟩
    · obtain ⟨before, first, wording, hfirst, hbefore, hoffends⟩ := ih hargs
      exact ⟨before, first, wording, hfirst.trans (List.prefix_append ..), hbefore, hoffends⟩

/-! ## Going through the arguments -/

theorem isQuietFlag_iff : isQuietFlag argument = true ↔ AsksQuiet argument := by
  simp [isQuietFlag, AsksQuiet]

theorem not_isQuietFlag_of_isPath (h : IsPath argument) : ¬ isQuietFlag argument = true :=
  fun hflag => not_isPath_of_asksQuiet (isQuietFlag_iff.mp hflag) h

section OneArgument

variable (quiet : Bool) (rest : List Text)

theorem runArgs_of_asksQuiet (h : AsksQuiet argument) (path : Option Text) :
    runArgs quiet path (argument :: rest) = runArgs true path rest := by
  cases path <;> rw [runArgs, if_pos (isQuietFlag_iff.mpr h)]

theorem runArgs_of_option (h : ¬ IsPath argument) (hflag : ¬ AsksQuiet argument)
    (path : Option Text) :
    runArgs quiet path (argument :: rest) = .error (.unknownOption argument) := by
  cases path <;> rw [runArgs, if_neg (isQuietFlag_iff.not.mpr hflag), if_pos (not_not.mp h)]

theorem runArgs_of_first_path (h : IsPath argument) :
    runArgs quiet none (argument :: rest) = runArgs quiet (some argument) rest := by
  rw [runArgs, if_neg (not_isQuietFlag_of_isPath h), if_neg h]

theorem runArgs_of_second_path (h : IsPath argument) (first : Text) :
    runArgs quiet (some first) (argument :: rest) = .error (.secondPath argument) := by
  rw [runArgs, if_neg (not_isQuietFlag_of_isPath h), if_neg h]

end OneArgument

/-- **Behind harmless arguments** it is known whether there was a flag, and which the path was. -/
theorem runArgs_append (h : Harmless before) (rest : List Text) :
    runArgs false none (before ++ rest) =
      runArgs (decide (∃ argument ∈ before, AsksQuiet argument)) (paths before).head? rest := by
  -- what is known grows with the last argument, so this is on the end of the list
  induction before using List.reverseRecOn generalizing rest with
  | nil => rfl
  | append_singleton before argument ih =>
    obtain ⟨hbefore, hargument⟩ := harmless_concat_iff.mp h
    rw [List.append_assoc, List.singleton_append, ih hbefore]
    rcases not_offends_iff.mp hargument with hflag | ⟨hpath, hfirst⟩
    · have hquiet : ∃ flag ∈ before ++ [argument], AsksQuiet flag :=
        ⟨argument, List.mem_concat_self, hflag⟩
      rw [runArgs_of_asksQuiet _ _ hflag, decide_eq_true hquiet,
        paths_concat_of_not_isPath (not_isPath_of_asksQuiet hflag)]
    · have hquiet : (∃ flag ∈ before ++ [argument], AsksQuiet flag) ↔
          ∃ flag ∈ before, AsksQuiet flag := by
        have hflag : ¬ AsksQuiet argument := fun h => not_isPath_of_asksQuiet h hpath
        simp [hflag]
      rw [paths_concat_of_isPath hpath, paths_eq_nil_iff.mpr hfirst, List.head?_nil,
        runArgs_of_first_path _ _ hpath, decide_eq_decide.mpr hquiet]
      rfl

theorem runArgs_of_offends (hargs : before ++ [argument] <+: args) (hbefore : Harmless before)
    (h : Offends before argument wording) : ∃ refusal : Refusal,
      runArgs false none args = .error refusal ∧ refusal.message = "error: ".toList ++ wording ++
        " '".toList ++ argument ++ "'\n".toList ++ runUsage := by
  obtain ⟨behind, rfl⟩ := hargs
  rw [List.append_assoc, List.singleton_append, runArgs_append hbefore]
  cases h with
  | option hoption hflag => exact ⟨_, runArgs_of_option _ behind hoption hflag _, rfl⟩
  | second hpath hearlier =>
    obtain ⟨earlier, hmem, hpath'⟩ := hearlier
    rw [paths_eq_singleton hbefore hmem hpath']
    exact ⟨_, runArgs_of_second_path _ behind hpath earlier, rfl⟩

theorem runArgs_of_no_path (h : Harmless args) (hnone : ∀ argument ∈ args, ¬ IsPath argument) :
    runArgs false none args = .error .noPath := by
  have hargs := runArgs_append h []
  rw [List.append_nil, paths_eq_nil_iff.mpr hnone] at hargs
  exact hargs

theorem runArgs_of_path (h : Harmless args) (hmem : path ∈ args) (hpath : IsPath path) :
    runArgs false none args =
      .ok (run (decide (∃ argument ∈ args, AsksQuiet argument)) path) := by
  have hargs := runArgs_append h []
  rw [List.append_nil, paths_eq_singleton h hmem hpath] at hargs
  exact hargs

end Command

/-! ## Invocations -/

theorem Text.ofBytes?_eq_none {bytes : Bytes} (h : ∀ t, toBytes t ≠ bytes) :
    ofBytes? bytes = none := by
  rw [ofBytes?, Option.map_eq_none_iff]
  by_contra hsome
  obtain ⟨t, ht⟩ := ByteArray.isSome_utf8Decode?_iff.mp (Option.isSome_iff_ne_none.mpr hsome)
  have hdata : bytes.toArray = (toBytes t).toArray := by
    rw [← List.data_toByteArray, ← List.data_toByteArray, ht]
    rfl
  exact h t (congrArg Array.toList hdata).symm

theorem stdout_script (limit : Nat) (quiet : Bool) (path path' : Text)
    (content : Except ReadFailure Bytes) :
    (script limit quiet path content).map Report.stdout =
      (script limit quiet path' content).map Report.stdout := by
  cases content with
  | error failure => rfl
  | ok bytes =>
    rw [script, script]
    cases Text.ofBytes? bytes <;> rfl

section Invocations

open Command

variable {limit : Nat} {around : Surroundings} {args : List Text} {path : Text}

theorem invoke_run_of_error {refusal : Refusal} (h : runArgs false none args = .error refusal) :
    invoke limit around ("run".toList :: args) = .ok ⟨1, [], refusal.message⟩ := by
  rw [invoke, ofArgs, if_pos rfl, h]
  rfl

theorem invoke_run_of_path (h : Harmless args) (hmem : path ∈ args) (hpath : IsPath path) :
    invoke limit around ("run".toList :: args) =
      script limit (decide (∃ argument ∈ args, AsksQuiet argument)) path (around.file path) := by
  refine invoke_run ?_
  rw [ofArgs, if_pos rfl]
  exact runArgs_of_path h hmem hpath

/-- **A script run is settled by its arguments.** If an argument offends, the first one that does is
refused by its name, with exit code 1 and without anything written to standard output or read.
Otherwise, without a path the exit code is 1 as well. With one, it is the only path; a file there
that cannot be read, or is no text, is refused before any line of it has run, and a text that is run
without abort leads to exit code 0, whatever it tells of. Standard output then depends on nothing
but the content of the file and whether there is a flag. -/
theorem run_settled_by_arguments (limit : Nat) (args : List Text) :
    (¬ Harmless args → ∃ before argument wording,
      before ++ [argument] <+: args ∧ Harmless before ∧ Offends before argument wording) ∧
    (∀ before argument wording, before ++ [argument] <+: args → Harmless before →
      Offends before argument wording → ∀ around,
        invoke limit around ("run".toList :: args) =
          .ok ⟨1, [], "error: ".toList ++ wording ++ " '".toList ++ argument ++ "'\n".toList ++
            runUsage⟩) ∧
    (Harmless args → (∀ argument ∈ args, ¬ IsPath argument) → ∀ around,
      invoke limit around ("run".toList :: args) =
        .ok ⟨1, [], "error: run requires a script file\n".toList ++ runUsage⟩) ∧
    (Harmless args → ∀ path ∈ args, IsPath path →
      paths args = [path] ∧ ∀ around,
        (∀ failure, around.file path = .error failure →
          invoke limit around ("run".toList :: args) =
            .ok ⟨1, [], (unreadable path failure).stderr⟩) ∧
        (∀ bytes, around.file path = .ok bytes → (∀ source, Text.toBytes source ≠ bytes) →
          invoke limit around ("run".toList :: args) =
            .ok ⟨1, [], (unreadable path .notUtf8).stderr⟩) ∧
        ∀ source s out, around.file path = .ok (Text.toBytes source) →
          Session.fresh.readSource limit source = .ok (s, out) →
            invoke limit around ("run".toList :: args) =
              .ok ⟨0, transcript (decide (∃ argument ∈ args, AsksQuiet argument)) out, []⟩) ∧
    ∀ args' path path' around around', Harmless args → path ∈ args → IsPath path →
      Harmless args' → path' ∈ args' → IsPath path' → around.file path = around'.file path' →
        ((∃ argument ∈ args, AsksQuiet argument) ↔ ∃ argument ∈ args', AsksQuiet argument) →
          (invoke limit around ("run".toList :: args)).map Report.stdout =
            (invoke limit around' ("run".toList :: args')).map Report.stdout := by
  refine ⟨exists_offence, fun before argument wording hfirst hbefore hoffends around => ?_,
    fun hargs hnone around => invoke_run_of_error (runArgs_of_no_path hargs hnone),
    fun hargs path hmem hpath => ⟨paths_eq_singleton hargs hmem hpath, fun around => ⟨?_, ?_, ?_⟩⟩,
    fun args' path path' around around' hargs hmem hpath hargs' hmem' hpath' hfile hquiet => ?_⟩
  · obtain ⟨refusal, hrefused, hmessage⟩ := runArgs_of_offends hfirst hbefore hoffends
    rw [invoke_run_of_error hrefused, hmessage]
  · intro failure hfile
    rw [invoke_run_of_path hargs hmem hpath, hfile]
    rfl
  · intro bytes hfile hbytes
    rw [invoke_run_of_path hargs hmem hpath, hfile, script, Text.ofBytes?_eq_none hbytes]
    rfl
  · intro source s out hfile hread
    rw [invoke_run_of_path hargs hmem hpath, hfile, script_toBytes, hread]
    rfl
  · rw [invoke_run_of_path hargs hmem hpath, invoke_run_of_path hargs' hmem' hpath', hfile,
      decide_eq_decide.mpr hquiet]
    exact stdout_script limit _ path path' _

/-- A second path is refused before a wrong option behind it, flags alone are no script, and of a
missing file and of one that is no text no line runs. Two flags around the path and one behind it
come to the same. -/
theorem run_settled_by_arguments_flags :
    invoke 0 (.holding twiceEnded)
        ["run".toList, "-q".toList, "a".toList, "b".toList, "-x".toList] =
      .ok ⟨1, [], "error: unexpected argument 'b'\n".toList ++ runUsage⟩ ∧
    invoke 0 (.holding twiceEnded) ["run".toList, "-q".toList, "--quiet".toList] =
      .ok ⟨1, [], "error: run requires a script file\n".toList ++ runUsage⟩ ∧
    invoke 0 ⟨fun _ => .error .noSuchFile, []⟩ ["run".toList, "a".toList] =
      .ok ⟨1, [], (unreadable "a".toList .noSuchFile).stderr⟩ ∧
    invoke 0 ⟨fun _ => .ok [255], []⟩ ["run".toList, "a".toList] =
      .ok ⟨1, [], (unreadable "a".toList .notUtf8).stderr⟩ ∧
    invoke 0 (.holding twiceEnded) ["run".toList, "-q".toList, "a".toList, "--quiet".toList] =
      .ok ⟨0, Record.lines [.failure (Fault.addressOutOfBounds 1 1).message, .ended, .ended], []⟩ ∧
    (invoke 0 (.holding twiceEnded)
        ["run".toList, "-q".toList, "a".toList, "--quiet".toList]).map Report.stdout =
      (invoke 0 (.holding twiceEnded) ["run".toList, "b".toList, "-q".toList]).map
        Report.stdout := by
  obtain ⟨s, out, hread, hout⟩ : ∃ s out, Session.fresh.readSource 0 twiceEnded = .ok (s, out) ∧
      transcript true out = Record.lines
        [.failure (Fault.addressOutOfBounds 1 1).message, .ended, .ended] := ⟨_, _, rfl, rfl⟩
  have hbytes : ∀ source, Text.toBytes source ≠ [255] := by
    intro source h
    have hsource := Text.ofBytes?_toBytes source
    rw [h] at hsource
    cases hsource
  obtain ⟨-, hoffends, -⟩ :=
    run_settled_by_arguments 0 ["-q".toList, "a".toList, "b".toList, "-x".toList]
  obtain ⟨-, -, hnone, -⟩ := run_settled_by_arguments 0 ["-q".toList, "--quiet".toList]
  obtain ⟨-, -, -, hbare, -⟩ := run_settled_by_arguments 0 ["a".toList]
  obtain ⟨-, -, -, hflags, hsame⟩ :=
    run_settled_by_arguments 0 ["-q".toList, "a".toList, "--quiet".toList]
  have hfile := (hbare (by decide) "a".toList (by decide) (by decide)).2
  refine ⟨?_, hnone (by decide) (by decide) _, (hfile _).1 .noSuchFile rfl,
    (hfile _).2.1 [255] rfl hbytes, ?_, ?_⟩
  · exact hoffends ["-q".toList, "a".toList] "b".toList _ ⟨["-x".toList], rfl⟩ (by decide)
      (.second (by decide) ⟨"a".toList, by decide, by decide⟩) _
  · have hran := (hflags (by decide) "a".toList (by decide) (by decide)).2 (.holding twiceEnded)
    exact (hran.2.2 twiceEnded s out rfl hread).trans (by rw [← hout]; rfl)
  · exact hsame ["b".toList, "-q".toList] "a".toList "b".toList (.holding twiceEnded)
      (.holding twiceEnded) (by decide) (by decide) (by decide) (by decide) (by decide) (by decide)
      rfl (by decide)

end Invocations

end CellMachine
