import CellMachine.Proofs.Script.Limit
import CellMachine.Proofs.Session.Records

/-! # Calls that forget the bench

A line that constructs a computer puts it on the bench in place of the one that was there. So when a
call reaches such a line, what was on the bench before makes no difference to what is there in the
end; and when it is the first line of the routine, the call says the same, whatever was on the bench.
A size that no word can hold constructs nothing, and does not count.

* `Line.Builds`: lines that put a new computer on the bench.
* `replay_of_builds`, `bench_of_replay`: the bench that a replay starts with is forgotten at such a
  line.
* `readLine_of_builds`, `readLines_of_builds`: with such a first line, calls of the routine are all
  alike.
* `call_forgets_bench`: two calls of the same routine. -/

namespace CellMachine

open Reply

/-- **Lines that put a new computer on the bench:** constructions of a size that is a word. -/
def Line.Builds (line : Text) : Prop :=
  ∃ name size, Line.Constructs line name size ∧ size ≤ 2 ^ 63 - 1

/-! ## Replays -/

section Replays

variable {limit : Nat} {vs : Variables} {bench bench' bench₁ bench₂ : Option Bench} {line : Text}
  {lines : List Text} {out out₁ out₂ : List Record}

theorem replayLine_of_builds (h : Line.Builds line) (bench₁ bench₂ : Option Bench) :
    replayLine limit vs bench₁ line = replayLine limit vs bench₂ line := by
  obtain ⟨name, size, hconstructs, hsize⟩ := h
  obtain ⟨w, hw⟩ := Option.isSome_iff_exists.mp ((Word.ofInt?_natCast size).mpr hsize)
  simp only [replayLine, construction?_iff.mpr hconstructs, construct, hw, Option.elim_some]

theorem replay_of_builds (h : Line.Builds line) (bench₁ bench₂ : Option Bench) :
    replay limit vs bench₁ (line :: lines) = replay limit vs bench₂ (line :: lines) := by
  rw [replay, replay, feed_cons, feed_cons, replayLine_of_builds h bench₁ bench₂]

/-- **There is a computer on the bench** after a line that builds one, and also after any other line
if there was one before. -/
theorem isSome_of_replayLine (h : bench.isSome ∨ Line.Builds line)
    (hreply : replayLine limit vs bench line = .ok (bench', out)) : bench'.isSome := by
  unfold replayLine at hreply
  split at hreply
  · rename_i name size hline
    obtain ⟨-, ⟨hw, rfl⟩ | ⟨w, c, -, -, rfl⟩⟩ := construct_cases hreply
    · rcases h with h | ⟨name', size', hconstructs, hsize⟩
      · exact h
      · cases hline.symm.trans (construction?_iff.mpr hconstructs)
        have hword := (Word.ofInt?_natCast size).mpr hsize
        rw [hw] at hword
        cases hword
    · rfl
  · rename_i hline
    rcases h with h | ⟨name', size', hconstructs, -⟩
    · obtain ⟨b, rfl⟩ := Option.isSome_iff_exists.mp h
      unfold chainReply at hreply
      dsimp only at hreply
      split at hreply
      · cases hreply
        rfl
      · obtain ⟨c, -, rfl⟩ := andThen_silent_eq_ok_iff.mp hreply
        rfl
    · rw [construction?_iff.mpr hconstructs] at hline
      cases hline

theorem isSome_of_replay (h : bench.isSome)
    (hreplay : replay limit vs bench lines = .ok (bench', out)) : bench'.isSome := by
  have hensures : Ensures (fun bench : Option Bench => bench.isSome) (fun _ => True)
      (replay limit vs bench lines) :=
    ensures_feed (fun _ _ hbench _ _ hreply =>
      ⟨isSome_of_replayLine (Or.inl hbench) hreply, fun _ _ => trivial⟩) lines h
  exact (hensures bench' out hreplay).1

/-- **A replay that builds a computer leaves one,** and which one it is does not depend on the
bench. -/
theorem bench_of_replay (hbuilds : ∃ line ∈ lines, Line.Builds line)
    (h₁ : replay limit vs bench₁ lines = .ok (bench, out₁))
    (h₂ : replay limit vs bench₂ lines = .ok (bench', out₂)) :
    bench.isSome ∧ bench = bench' := by
  obtain ⟨line, hmem, hline⟩ := hbuilds
  obtain ⟨before, behind, rfl⟩ := List.append_of_mem hmem
  -- from the line that builds on, both replays are the same one
  have hsame : ∀ {start last : Option Bench} {out : List Record},
      replay limit vs start (before ++ line :: behind) = .ok (last, out) →
        ∃ more, replay limit vs none (line :: behind) = .ok (last, more) := by
    intro start last out h
    rw [replay, feed_append] at h
    obtain ⟨reached, said, more, -, hmore, -⟩ := andThen_eq_ok_iff.mp h
    exact ⟨more, (replay_of_builds hline none reached).trans hmore⟩
  obtain ⟨more₁, hlast₁⟩ := hsame h₁
  obtain ⟨more₂, hlast₂⟩ := hsame h₂
  rw [hlast₁] at hlast₂
  cases hlast₂
  refine ⟨?_, rfl⟩
  obtain ⟨built, said, rest, hbuilt, hrest, -⟩ := andThen_eq_ok_iff.mp hlast₁
  exact isSome_of_replay (isSome_of_replayLine (Or.inr hline) hbuilt) hrest

end Replays

/-! ## Calls -/

namespace Session

variable {limit : Nat} {s s' : Session} {r : Routine} {line first : Text} {rest : List Text}
  {out : List Record}

theorem replay_of_call (hr : s.routine = some r) (hline : Line.classify (some r) line = .call)
    (h : s.readLine limit line = .ok (s', out)) :
    replay limit s.vars s.bench r.body = .ok (s'.bench, out) ∧
      s' = { s with bench := s'.bench } := by
  rw [← hr] at hline
  rw [readLine_of_call limit hr hline] at h
  obtain ⟨bench, hreplay, rfl⟩ := andThen_silent_eq_ok_iff.mp h
  exact ⟨hreplay, rfl⟩

theorem readLine_of_builds {line' : Text} (hr : s.routine = some r) (hbody : r.body = first :: rest)
    (hbuilds : Line.Builds first) (hline : Line.classify (some r) line = .call)
    (hline' : Line.classify (some r) line' = .call) (bench : Option Bench) :
    readLine limit { s with bench } line' = s.readLine limit line := by
  rw [← hr] at hline hline'
  have hcall : readLine limit { s with bench } line' =
      Reply.andThen (replay limit s.vars bench r.body) fun bench => .silent { s with bench } :=
    readLine_of_call limit hr hline'
  rw [hcall, readLine_of_call limit hr hline, hbody, replay_of_builds hbuilds bench s.bench]

/-- **Many calls in a row** emit over and over what one emits, and leave what one leaves. -/
theorem readLines_of_builds (hr : s.routine = some r) (hbody : r.body = first :: rest)
    (hbuilds : Line.Builds first) (hline : Line.classify (some r) line = .call)
    (h : s.readLine limit line = .ok (s', out)) {calls : List Text} (hne : calls ≠ [])
    (hcalls : ∀ line ∈ calls, Line.classify (some r) line = .call) (bench : Option Bench) :
    readLines limit { s with bench } calls =
      .ok (s', (List.replicate calls.length out).flatten) := by
  induction calls generalizing bench with
  | nil => exact absurd rfl hne
  | cons c calls ih =>
    have hfirst : readLine limit { s with bench } c = .ok (s', out) :=
      (readLine_of_builds hr hbody hbuilds hline (hcalls c (List.mem_cons_self ..)) bench).trans h
    have hkept : s' = { s with bench := s'.bench } := (replay_of_call hr hline h).2
    rw [readLines, feed_cons, hfirst, List.length_cons, List.replicate_succ, List.flatten_cons]
    refine andThen_eq_ok_iff.mpr ⟨s', out, (List.replicate calls.length out).flatten, rfl, ?_, rfl⟩
    cases calls with
    | nil => rfl
    | cons c' calls =>
      have htail := ih (List.cons_ne_nil c' calls)
        (fun l hl => hcalls l (List.mem_cons_of_mem c hl)) s'.bench
      rw [← hkept] at htail
      exact htail

/-- **A call that builds a computer forgets the one before.** Let two sessions have the same values
of variables and the same routine, whatever is on their benches, and let a call of the routine be
answered in both. If the routine builds a computer at some line, the calls leave the same bench, and
there is a computer on it. If it does so at its first line, the calls emit the same records, and any
number of calls in a row, at least one, emits these records as many times and leaves what a single
call leaves. -/
theorem call_forgets_bench {s₁ s₂ s₁' s₂' : Session} {line₁ line₂ : Text} {limit₁ limit₂ : Nat}
    {out₁ out₂ : List Record} (hvars : ∀ x, s₁.value? x = s₂.value? x)
    (hr₁ : s₁.routine = some r) (hr₂ : s₂.routine = some r)
    (hline₁ : Line.classify (some r) line₁ = .call) (hline₂ : Line.classify (some r) line₂ = .call)
    (h₁ : s₁.readLine limit₁ line₁ = .ok (s₁', out₁))
    (h₂ : s₂.readLine limit₂ line₂ = .ok (s₂', out₂)) :
    ((∃ line ∈ r.body, Line.Builds line) → ∃ b, s₁'.bench = some b ∧ s₂'.bench = some b) ∧
      ∀ first rest, r.body = first :: rest → Line.Builds first →
        out₁ = out₂ ∧ ∀ calls, calls ≠ [] →
          (∀ line ∈ calls, Line.classify (some r) line = .call) →
          s₁.readLines limit₁ calls = .ok (s₁', (List.replicate calls.length out₁).flatten) := by
  -- both calls, with cycles enough for either and with one list of variables
  have hreplay₁ : replay (max limit₁ limit₂) s₁.vars s₁.bench r.body = .ok (s₁'.bench, out₁) :=
    kept_replay (Nat.le_max_left ..) (fun _ => rfl) _ _ _ _ (replay_of_call hr₁ hline₁ h₁).1
  have hreplay₂ : replay (max limit₁ limit₂) s₁.vars s₂.bench r.body = .ok (s₂'.bench, out₂) :=
    kept_replay (Nat.le_max_right ..) (fun x => (hvars x).symm) _ _ _ _
      (replay_of_call hr₂ hline₂ h₂).1
  constructor
  · intro hbuilds
    obtain ⟨hsome, hsame⟩ := bench_of_replay hbuilds hreplay₁ hreplay₂
    obtain ⟨b, hb⟩ := Option.isSome_iff_exists.mp hsome
    exact ⟨b, hb, hsame.symm.trans hb⟩
  · intro first rest hbody hbuilds
    constructor
    · rw [hbody, replay_of_builds hbuilds s₁.bench s₂.bench, ← hbody, hreplay₂] at hreplay₁
      exact (Prod.mk.inj (Except.ok.inj hreplay₁)).2.symm
    · intro calls hne hcalls
      exact readLines_of_builds hr₁ hbody hbuilds hline₁ h₁ hne hcalls s₁.bench

/-- A routine that builds its computer at the first line. The size in the last line is no word. -/
def printingRoutine : Routine :=
  ⟨"f".toList, ["c = Computer.new(2)".toList,
    "c.insert(\"PUSH\", x).insert(\"PRINT\").set_address(0).execute()".toList,
    "c = Computer.new(9223372036854775808)".toList], true⟩

/-- A routine that addresses the bench it finds, and builds its computer later. -/
def lateRoutine : Routine :=
  ⟨"f".toList, ["c.set_address(1)".toList, "d = Computer.new(1)".toList, "d.execute()".toList],
    true⟩

/-- A bench with a computer that has no second address. -/
def smallBench : Bench := ⟨"c".toList, ⟨Store.vacant 1, 0⟩⟩

theorem call_forgets_bench_small :
    (∃ s₁ s₂ out b, readLine 3 ⟨[], some lateRoutine, none⟩ "f".toList = .ok (s₁, out) ∧
      readLine 4 ⟨[], some lateRoutine, some smallBench⟩ " f()".toList =
        .ok (s₂, .failure (Fault.counterOutOfBounds 1 1).message :: out) ∧
      s₁.bench = some b ∧ s₂.bench = some b) ∧
    ∃ s₁ s₂, readLine 4 ⟨[("x".toList, 7)], some printingRoutine, none⟩ "f".toList =
        .ok (s₁, [.printed 7]) ∧
      readLine 5 ⟨[("x".toList, 7)], some printingRoutine, some smallBench⟩ " f()".toList =
        .ok (s₂, [.printed 7]) ∧
      readLines 4 ⟨[("x".toList, 7)], some printingRoutine, none⟩
        ["f".toList, " f()".toList, "f".toList] =
        .ok (s₁, [.printed 7, .printed 7, .printed 7]) := by
  constructor
  · have hbuilds : ∃ line ∈ lateRoutine.body, Line.Builds line :=
      ⟨"d = Computer.new(1)".toList, by decide, "d".toList, 1, construction?_iff.mp rfl, by decide⟩
    have hname : Line.classify (some lateRoutine) "f".toList = .call := by decide
    have hbrackets : Line.classify (some lateRoutine) " f()".toList = .call := by decide
    have hcalls : ∃ s₁ s₂ out,
        readLine 3 ⟨[], some lateRoutine, none⟩ "f".toList = .ok (s₁, out) ∧
          readLine 4 ⟨[], some lateRoutine, some smallBench⟩ " f()".toList =
            .ok (s₂, .failure (Fault.counterOutOfBounds 1 1).message :: out) :=
      ⟨_, _, _, rfl, rfl⟩
    have hvars : ∀ x, value? ⟨[], some lateRoutine, none⟩ x =
        value? ⟨[], some lateRoutine, some smallBench⟩ x := fun _ => rfl
    obtain ⟨s₁, s₂, out, h₁, h₂⟩ := hcalls
    obtain ⟨b, hb₁, hb₂⟩ :=
      (call_forgets_bench hvars rfl rfl hname hbrackets h₁ h₂).1 hbuilds
    exact ⟨s₁, s₂, out, b, h₁, h₂, hb₁, hb₂⟩
  · have hbuilds : Line.Builds "c = Computer.new(2)".toList :=
      ⟨"c".toList, 2, construction?_iff.mp rfl, by decide⟩
    have hname : Line.classify (some printingRoutine) "f".toList = .call := by decide
    have hbrackets : Line.classify (some printingRoutine) " f()".toList = .call := by decide
    have hcalls : ∃ s₁ s₂ out,
        readLine 4 ⟨[("x".toList, 7)], some printingRoutine, none⟩ "f".toList =
            .ok (s₁, [.printed 7]) ∧
          readLine 5 ⟨[("x".toList, 7)], some printingRoutine, some smallBench⟩ " f()".toList =
            .ok (s₂, out) := ⟨_, _, _, rfl, rfl⟩
    obtain ⟨s₁, s₂, out, h₁, h₂⟩ := hcalls
    obtain ⟨rfl, hmany⟩ :=
      (call_forgets_bench (fun _ => rfl) rfl rfl hname hbrackets h₁ h₂).2 _ _ rfl hbuilds
    refine ⟨s₁, s₂, h₁, h₂, hmany ["f".toList, " f()".toList, "f".toList] nofun ?_⟩
    intro line hline
    simp only [List.mem_cons, List.not_mem_nil, or_false] at hline
    rcases hline with rfl | rfl | rfl
    · exact hname
    · exact hbrackets
    · exact hname

end Session

end CellMachine
