import CellMachine.Proofs.Session.Growth
import CellMachine.Proofs.Session.Sound

/-! # Sessions that ask for too much memory

A line may *overload* a session: it calls a routine, and the replay reaches a construction whose
size is a word but whose slots do not fit in memory. That is what makes a construction abort. Sizes
beyond all words construct nothing and are harmless.

Pushes want memory too, and are taken to have it. Where what a session constructs and what it reads
is moderate, they do: each store that a run passes through has room to grow. Such a session answers
whatever it reads, in nothing, in reports or in its end, as long as its runs end and no line of it
is oversized.

* `Session.Overloads`, `readLine_eq_storeTooLarge_iff`: overloading, and that it is what makes a
  line abort for want of memory.
* `Input.lines`, `Meets`: the lines that an input consists of, and what a session comes to read.
* `of_meets`: what each line keeps holds wherever a session comes to.
* `BodyAll`, `bodyAll_of_meets`: the lines of a routine are lines that were read.
* `Moderate`, `ensures_moderate_readLine`: what bounds the store and the routine of a session that
  has read lines of a given extent.
* `storeTooLarge_iff_overloads`: when a construction makes a session abort, and when a session
  answers everything. `storeTooLarge_of_oversized_construction`: one that aborts. -/

namespace CellMachine.Session

open Reply

variable {s s' : Session} {line : Text} {limit : Nat}

/-! ## Lines -/

/-- **Overloading.** The line calls the routine, and the replay reaches a line that is oversized. -/
def Overloads (limit : Nat) (s : Session) (line : Text) : Prop :=
  Line.classify s.routine line = .call ∧ ∃ r ∈ s.routine, ∃ before l behind bench out,
    r.body = before ++ l :: behind ∧
      replay limit s.vars s.bench before = .ok (bench, out) ∧ Oversizes l

theorem readLine_of_overloads (h : s.Overloads limit line) :
    s.readLine limit line = .error .storeTooLarge := by
  obtain ⟨hline, r, hr, hreach⟩ := h
  rw [readLine_of_call limit hr hline, replay_eq_storeTooLarge_iff.mpr hreach]
  rfl

theorem readLine_eq_storeTooLarge_iff :
    s.readLine limit line = .error .storeTooLarge ↔ s.Overloads limit line := by
  refine ⟨fun h => ?_, readLine_of_overloads⟩
  rcases readLine_cases limit s line with ⟨-, hend⟩ | ⟨hline, r, hr, hcall⟩ | ⟨s₁, hsilent, -⟩
  · rw [hend] at h
    cases h
  · rw [hcall, andThen_eq_error_iff] at h
    rcases h with h | ⟨bench, out, -, h⟩
    · exact ⟨hline, r, hr, replay_eq_storeTooLarge_iff.mp h⟩
    · cases h
  · rw [hsilent] at h
    cases h

/-! ## Inputs -/

/-- **The lines that an input consists of.** -/
def Input.lines : Input → List Text
  | .line text => [text]
  | .source text => sourceLines text
  | .reset => []

theorem reply_eq_error_iff {input : Input} {cause : Abort} :
    input.reply limit s = .error cause ↔ s.readLines limit input.lines = .error cause := by
  cases input with
  | line text =>
    have hlast : ∀ r : Reply Session, r = .error cause ↔
        Reply.andThen r (fun s' => feed (readLine limit) s' []) = .error cause := by
      intro r
      rw [andThen_eq_error_iff]
      simp
    exact hlast (s.readLine limit text)
  | source text =>
    rw [Input.lines, ← unechoed_readSource, unechoed_eq_error_iff]
    rfl
  | reset => exact ⟨nofun, nofun⟩

theorem reply_eq_storeTooLarge_iff {input : Input} :
    input.reply limit s = .error .storeTooLarge ↔
      ∃ before line behind s' out, input.lines = before ++ line :: behind ∧
        s.readLines limit before = .ok (s', out) ∧ s'.Overloads limit line := by
  simp only [reply_eq_error_iff, readLines, feed_eq_error_iff, readLine_eq_storeTooLarge_iff]

/-- **What a session comes to read:** among the inputs is the line, and it is read by the session
`s` after all before it was answered. -/
def Meets (limit : Nat) (inputs : List Input) (s : Session) (line : Text) : Prop :=
  ∃ before input behind s₀ out₀ earlier later out, inputs = before ++ input :: behind ∧
    feed (Input.reply limit) fresh before = .ok (s₀, out₀) ∧
      input.lines = earlier ++ line :: later ∧ s₀.readLines limit earlier = .ok (s, out)

variable {inputs : List Input}

theorem feed_eq_storeTooLarge_iff :
    feed (Input.reply limit) fresh inputs = .error .storeTooLarge ↔
      ∃ s line, Meets limit inputs s line ∧ s.Overloads limit line := by
  simp only [feed_eq_error_iff, reply_eq_storeTooLarge_iff]
  constructor
  · rintro ⟨before, input, behind, s₀, out₀, hinputs, hbefore, earlier, line, later, s, out, hlines,
      hearlier, hline⟩
    exact ⟨s, line, ⟨before, input, behind, s₀, out₀, earlier, later, out, hinputs, hbefore, hlines,
      hearlier⟩, hline⟩
  · rintro ⟨s, line, ⟨before, input, behind, s₀, out₀, earlier, later, out, hinputs, hbefore,
      hlines, hearlier⟩, hline⟩
    exact ⟨before, input, behind, s₀, out₀, hinputs, hbefore, earlier, line, later, s, out, hlines,
      hearlier, hline⟩

/-! ## What lines keep -/

theorem extent_flatMap_lines (inputs : List Input) :
    extent (inputs.flatMap Input.lines) = (inputs.map fun input => extent input.lines).sum := by
  induction inputs with
  | nil => rfl
  | cons input inputs ih =>
    rw [List.flatMap_cons, extent_append, ih, List.map_cons, List.sum_cons]

section Kept

variable {P : Nat → Session → Prop} (hfresh : ∀ n, P n fresh)
include hfresh

/-- What holds up to the extent of the lines read so far, and is kept by each line, is kept by an
input. -/
theorem ensures_reply {input : Input} {n : Nat}
    (hline : ∀ n s, ∀ line ∈ input.lines, P n s →
      Ensures (P (n + (line.length + 1))) (fun _ => True) (s.readLine limit line)) (h : P n s) :
    Ensures (P (n + extent input.lines)) (fun _ => True) (input.reply limit s) := by
  cases input with
  | line text =>
    have hextent : extent (Input.lines (.line text)) = text.length + 1 := by
      simp [Input.lines, extent]
    rw [hextent]
    exact hline n s text (List.mem_singleton_self text) h
  | source text =>
    refine ensures_feed_weighted (fun m s₁ line hmem h₁ => ?_) h
    have hecho : Ensures (P m) (fun _ => True) (.ok (s₁, [.echo line])) := ensures_ok h₁ (by simp)
    exact hecho.andThen fun s₂ h₂ => hline m s₂ line hmem h₂
  | reset => exact ensures_silent (hfresh _)

/-- **What each line keeps holds wherever a session comes to.** -/
theorem of_meets (hline : ∀ n s, ∀ line ∈ inputs.flatMap Input.lines, P n s →
      Ensures (P (n + (line.length + 1))) (fun _ => True) (s.readLine limit line))
    (h : Meets limit inputs s line) :
    ∃ read, P read s ∧ read + (line.length + 1) ≤ extent (inputs.flatMap Input.lines) := by
  obtain ⟨before, input, behind, s₀, out₀, earlier, later, out, rfl, hbefore, hinput, hearlier⟩ := h
  have hread : ∀ i ∈ before ++ input :: behind, ∀ n s, ∀ line ∈ i.lines, P n s →
      Ensures (P (n + (line.length + 1))) (fun _ => True) (s.readLine limit line) :=
    fun i hi n s line hmem => hline n s line (List.mem_flatMap.mpr ⟨i, hi, hmem⟩)
  have hstart : Ensures (P (0 + (before.map fun i => extent i.lines).sum)) (fun _ => True)
      (feed (Input.reply limit) fresh before) :=
    ensures_feed_weighted
      (fun _ _ i hi => ensures_reply hfresh (hread i (List.mem_append_left _ hi))) (hfresh 0)
  have hrest : Ensures (P (0 + (before.map fun i => extent i.lines).sum + extent earlier))
      (fun _ => True) (s₀.readLines limit earlier) := by
    refine ensures_feed_weighted (fun n s₁ l hl => hread input (by simp) n s₁ l ?_)
      (hstart s₀ out₀ hbefore).1
    rw [hinput]
    exact List.mem_append_left _ hl
  refine ⟨_, (hrest s out hearlier).1, ?_⟩
  rw [List.flatMap_append, List.flatMap_cons, extent_append, extent_append, extent_flatMap_lines,
    hinput, extent_append, extent_cons]
  omega

end Kept

/-! ## The lines of a routine -/

/-- All lines of the routine have the property `A`. -/
def BodyAll (A : Text → Prop) (s : Session) : Prop := ∀ r ∈ s.routine, ∀ l ∈ r.body, A l

variable {A : Text → Prop}

theorem ensures_body_readLine (hline : A line) (h : s.BodyAll A) :
    Ensures (BodyAll A) (fun _ => True) (s.readLine limit line) := by
  rcases readLine_cases limit s line with ⟨-, hend⟩ | ⟨-, r, -, hcall⟩ | ⟨s₁, hsilent, -, hbody⟩
  · rw [hend]
    exact ensures_ok nofun (by simp)
  · rw [hcall]
    intro s' out hok
    obtain ⟨bench, -, rfl⟩ := andThen_silent_eq_ok_iff.mp hok
    exact ⟨h, by simp⟩
  · rw [hsilent]
    refine ensures_silent fun r' hr' l hl => ?_
    rcases hbody r' hr' with hnil | ⟨r, hr, hsame | hmore⟩
    · rw [hnil] at hl
      cases hl
    · rw [hsame] at hl
      exact h r hr l hl
    · rw [hmore] at hl
      rcases List.mem_append.mp hl with hl | hl
      · exact h r hr l hl
      · rw [List.mem_singleton.mp hl]
        exact hline

theorem bodyAll_of_meets (hlines : ∀ line ∈ inputs.flatMap Input.lines, A line)
    (h : Meets limit inputs s line) : s.BodyAll A := by
  have hkept : ∀ (_ : Nat) (s : Session), ∀ line ∈ inputs.flatMap Input.lines, s.BodyAll A →
      Ensures (BodyAll A) (fun _ => True) (s.readLine limit line) :=
    fun _ s line hmem h => ensures_body_readLine (hlines line hmem) h
  obtain ⟨-, hbody, -⟩ := of_meets (P := fun _ => BodyAll A) (fun _ => nofun) hkept h
  exact hbody

theorem feed_ne_storeTooLarge (h : ∀ line ∈ inputs.flatMap Input.lines, ¬ Oversizes line) :
    feed (Input.reply limit) fresh inputs ≠ .error .storeTooLarge := by
  intro habort
  obtain ⟨s, line, hmeets, -, r, hr, before, l, behind, bench, out, hbody, -, hl⟩ :=
    feed_eq_storeTooLarge_iff.mp habort
  refine bodyAll_of_meets h hmeets r hr l ?_ hl
  rw [hbody]
  simp

/-! ## Moderate sessions -/

/-- **Sessions that have read lines of extent `read`** and nothing that asks for more than `most`
slots. Each run may take `limit` cycles. -/
structure Moderate (limit most read : Nat) (s : Session) : Prop where
  bench : Spans (most + limit * read ^ 2) s.bench
  body : ∀ r ∈ s.routine, extent r.body ≤ read
  asks : s.BodyAll (AsksAtMost most)

theorem moderate_fresh (limit most read : Nat) : fresh.Moderate limit most read :=
  ⟨nofun, nofun, nofun⟩

/-- A call after lines of extent `read` takes no more than reading one line further allows. -/
theorem square_arith {limit read more : Nat} (h : 1 ≤ more) :
    limit * read ^ 2 + limit * read ≤ limit * (read + more) ^ 2 := by
  rw [← Nat.mul_add, Nat.pow_two, Nat.pow_two]
  refine Nat.mul_le_mul_left limit ?_
  calc read * read + read
    _ = read * (read + 1) := (Nat.mul_succ read read).symm
    _ ≤ (read + more) * (read + more) := Nat.mul_le_mul (by omega) (by omega)

section Steps

variable {most read : Nat} (hdefault : Store.defaultCapacity ≤ most)
include hdefault

theorem ensures_moderate_readLine (hline : AsksAtMost most line)
    (h : s.Moderate limit most read) :
    Ensures (Moderate limit most (read + (line.length + 1))) (fun _ => True)
      (s.readLine limit line) := by
  intro s' out hok
  have hasks := (ensures_body_readLine hline h.asks s' out hok).1
  have hsquare : limit * read ^ 2 + limit * read ≤ limit * (read + (line.length + 1)) ^ 2 :=
    square_arith (Nat.succ_pos _)
  rcases readLine_cases limit s line with
    ⟨-, hend⟩ | ⟨-, r, hr, hcall⟩ | ⟨s₁, hsilent, hbench, hbody⟩
  · rw [hend] at hok
    cases hok
    exact ⟨moderate_fresh .., by simp⟩
  · rw [hcall] at hok
    obtain ⟨bench, hreplay, rfl⟩ := andThen_silent_eq_ok_iff.mp hok
    have hspans := spans_of_call h.asks hdefault (Nat.le_add_right ..) h.bench hr hreplay
    have hextent : limit * extent r.body ≤ limit * read := Nat.mul_le_mul_left _ (h.body r hr)
    exact ⟨⟨hspans.mono (by omega), fun r' hr' => Nat.le_add_right_of_le (h.body r' hr'), hasks⟩,
      by simp⟩
  · rw [hsilent] at hok
    cases hok
    refine ⟨⟨?_, fun r' hr' => ?_, hasks⟩, by simp⟩
    · rw [hbench]
      exact h.bench.mono (by omega)
    · rcases hbody r' hr' with hnil | ⟨r, hr, hsame | hmore⟩
      · rw [hnil]
        exact Nat.zero_le _
      · rw [hsame]
        exact Nat.le_add_right_of_le (h.body r hr)
      · rw [hmore, extent_append]
        exact Nat.add_le_add (h.body r hr) (Nat.le_of_eq (by simp [extent]))

end Steps

/-! ## Whole sessions -/

/-- **The stores that runs pass through are bounded** by what a session asks for and reads. -/
theorem length_of_meets_runsOn {most : Nat} {store : Store}
    (hdefault : Store.defaultCapacity ≤ most)
    (hlines : ∀ line ∈ inputs.flatMap Input.lines, AsksAtMost most line)
    (h : Meets limit inputs s line) (hruns : s.RunsOn limit line store) :
    store.length ≤ most + limit * extent (inputs.flatMap Input.lines) ^ 2 := by
  obtain ⟨read, hmoderate, hle⟩ := of_meets (P := Moderate limit most) (moderate_fresh limit most)
    (fun _ _ line hmem h => ensures_moderate_readLine hdefault (hlines line hmem) h) h
  have hlength := length_of_runsOn hmoderate.asks hdefault (Nat.le_add_right ..) hmoderate.bench
    hmoderate.body hruns
  have hsquare : limit * read ^ 2 + limit * read ≤ limit * (read + (line.length + 1)) ^ 2 :=
    square_arith (Nat.succ_pos _)
  have htotal : limit * (read + (line.length + 1)) ^ 2 ≤
      limit * extent (inputs.flatMap Input.lines) ^ 2 :=
    Nat.mul_le_mul_left _ (Nat.pow_le_pow_left hle 2)
  omega

/-- **When a construction makes a session abort,** and when a session answers everything. A
construction does exactly when the session comes to read a line that overloads it. Now let the lines
ask for `most` slots at most, unless for so many that they are not laid out at all, and let memory
hold twice these slots, and twice the cycles of a run for each pair of characters read. Then no push
is in want of memory either, for each store that a run passes through has room to grow; and the
session answers all that it reads when no line among it is oversized and every run ends. -/
theorem storeTooLarge_iff_overloads (limit : Nat) (inputs : List Input) :
    (feed (Input.reply limit) fresh inputs = .error .storeTooLarge ↔
      ∃ s line, Meets limit inputs s line ∧ s.Overloads limit line) ∧
    ∀ most, Store.defaultCapacity ≤ most →
      (∀ line ∈ inputs.flatMap Input.lines, AsksAtMost most line) →
      Store.slotBytes * (2 * (most + limit * extent (inputs.flatMap Input.lines) ^ 2)) ≤
        Store.maxBytes →
      (∀ s line store, Meets limit inputs s line → s.RunsOn limit line store → store.HasRoom) ∧
      ((∀ line ∈ inputs.flatMap Input.lines, ¬ Oversizes line) →
        feed (Input.reply limit) fresh inputs ≠ .error .outOfCycles →
        ∃ s out, feed (Input.reply limit) fresh inputs = .ok (s, out)) := by
  refine ⟨feed_eq_storeTooLarge_iff, fun most hdefault hasks hroom =>
    ⟨fun s line store hmeets hruns => ?_, fun hlines hcycles => ?_⟩⟩
  · have hlength := length_of_meets_runsOn hdefault hasks hmeets hruns
    exact Nat.le_trans (Nat.mul_le_mul_left _ (Nat.mul_le_mul_left _ hlength)) hroom
  · have hmemory : feed (Input.reply limit) fresh inputs ≠ .error .storeTooLarge :=
      feed_ne_storeTooLarge hlines
    rcases hfeed : feed (Input.reply limit) fresh inputs with (_ | _) | ⟨s, out⟩
    · exact absurd hfeed hmemory
    · exact absurd hfeed hcycles
    · exact ⟨s, out, rfl⟩

/-- The beginning of a routine: a construction beyond all words, one of three slots, and a program
for these. -/
def multiplication : List Text :=
  ["c = Computer.new(99999999999999999999)".toList, "c = Computer.new(3)".toList,
    "c.insert(\"PUSH\", 6).insert(\"PUSH\", 7).insert(\"MULT\").set_address(0)".toList]

/-- The routine is defined, with a run at its end, and called. -/
def multiplyingInputs : List Input :=
  .line "def f".toList :: multiplication.map .line ++
    [.source "c.execute()\nend".toList, .line "f".toList]

/-- The session answers the call, which constructs a computer of three slots and pushes two more. -/
theorem storeTooLarge_iff_overloads_multiplying :
    (∃ s out, feed (Input.reply 4) fresh multiplyingInputs = .ok (s, out)) ∧
      ∃ s store, Meets 4 multiplyingInputs s "f".toList ∧ s.RunsOn 4 "f".toList store ∧
        store.length = 5 ∧ store.HasRoom := by
  obtain ⟨hroom, hanswers⟩ := (storeTooLarge_iff_overloads 4 multiplyingInputs).2 100 (by decide)
    (by decide) (by decide)
  refine ⟨hanswers (by decide) nofun, ?_⟩
  have hmeets : Meets 4 multiplyingInputs
      ⟨[], some ⟨"f".toList, multiplication ++ ["c.execute()".toList], true⟩, none⟩ "f".toList :=
    ⟨multiplyingInputs.dropLast, .line "f".toList, [], _, _, [], [], _, rfl, rfl, rfl, rfl⟩
  obtain ⟨b, k, hreplay, hstart, hafter, hlength⟩ : ∃ b k,
      replay 4 [] none multiplication = .ok (some b, []) ∧ b.computer.canStart ∧
        b.computer.start.after 2 = some k ∧ k.computer.store.length = 5 :=
    ⟨_, _, rfl, rfl, rfl, rfl⟩
  obtain ⟨outs, hcarried, -⟩ := replay_eq_ok_iff_carried.mp hreplay
  have hruns : RunsOn 4
      ⟨[], some ⟨"f".toList, multiplication ++ ["c.execute()".toList], true⟩, none⟩ "f".toList
      k.computer.store :=
    ⟨rfl, _, rfl, requests none multiplication, [], outs, b, rfl, hcarried, hstart, 2, by decide, k,
      hafter, rfl⟩
  exact ⟨_, k.computer.store, hmeets, hruns, hlength, hroom _ _ _ hmeets hruns⟩

/-- **Not every session answers:** the size of a construction can be a word and yet oversized. -/
theorem storeTooLarge_of_oversized_construction :
    feed (Input.reply 0) fresh
        [.line "def f".toList, .line "c = Computer.new(999999999999999999)".toList,
          .line "end".toList, .line "f".toList] = .error .storeTooLarge ∧
      ¬ ∀ limit inputs, feed (Input.reply limit) fresh inputs ≠ .error .outOfCycles →
        ∃ s out, feed (Input.reply limit) fresh inputs = .ok (s, out) := by
  have habort : feed (Input.reply 0) fresh
      [.line "def f".toList, .line "c = Computer.new(999999999999999999)".toList,
        .line "end".toList, .line "f".toList] = .error .storeTooLarge := rfl
  refine ⟨habort, fun hanswers => ?_⟩
  obtain ⟨s, out, hok⟩ := hanswers 0 _ (by rw [habort]; nofun)
  rw [habort] at hok
  cases hok

end CellMachine.Session
