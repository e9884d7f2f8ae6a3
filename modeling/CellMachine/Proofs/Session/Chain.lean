import CellMachine.Proofs.Script.Chain
import CellMachine.Proofs.Session.Records
import CellMachine.Proofs.Session.Sound

/-! # Chains and their links

A line of a routine may address the computer once and ask for several things, `name.link.link`. It
could as well be written as one line for each link: the links are carried out one after another on
the computer that the ones before have left, and none of them can put another computer on the bench.
What a link spells out, or that it spells out nothing, does not keep the links behind it from being
carried out.

* `linkLines`: the links of a chain, one to a line.
* `replayLine_chain`, `replay_chain`: a chain is replayed as its links are, line by line.
* `replayLine_link_eq_error`: of all links, only one that starts a run can abort.
* `chain_called_as_links`: calls of a routine with a chain, and of the routine with its links. -/

namespace CellMachine

open Reply
open Text (Identifier)

/-- **The links of a chain, one to a line.** -/
def linkLines (name : Text) (links : List Text) : List Text :=
  links.map fun link => chain name [link]

theorem linkLines_cons (name link : Text) (links : List Text) :
    linkLines name (link :: links) = chain name [link] :: linkLines name links := rfl

theorem linkLines_append (name : Text) (links links' : List Text) :
    linkLines name (links ++ links') = linkLines name links ++ linkLines name links' :=
  List.map_append

/-! ## Replaying chains -/

section Replays

variable {limit : Nat} {vs : Variables} {name link : Text} {links : List Text}
  {bench : Option Bench}

theorem replayLine_chain_of_name (hname : Identifier name) (hne : links ≠ [])
    (hdots : ∀ link ∈ links, '.' ∉ link) (c : Computer) :
    replayLine limit vs (some ⟨name, c⟩) (chain name links) =
      (feed (linkReply limit vs) c links).onState fun c => some ⟨name, c⟩ := by
  rw [replayLine, construction?_chain hname]
  simp only [chainReply, links?_chain hname hne hdots]
  exact andThen_silent _ _

theorem replayLine_link_of_name (hname : Identifier name) (hdot : '.' ∉ link) (c : Computer) :
    replayLine limit vs (some ⟨name, c⟩) (chain name [link]) =
      (linkReply limit vs c link).onState fun c => some ⟨name, c⟩ := by
  have hdots : ∀ t ∈ [link], '.' ∉ t := List.forall_mem_singleton.mpr hdot
  rw [replayLine_chain_of_name hname (List.cons_ne_nil link []) hdots, feed_singleton]

theorem replayLine_chain_of_ne (hname : Identifier name) (hbench : ∀ b ∈ bench, Identifier b.name)
    (hne : ∀ c, bench ≠ some ⟨name, c⟩) (links : List Text) :
    replayLine limit vs bench (chain name links) = .silent bench := by
  rw [replayLine, construction?_chain hname]
  cases bench with
  | none => rfl
  | some b =>
    have hother : b.name ≠ name := by
      rintro rfl
      exact hne b.computer rfl
    simp only [chainReply, links?_chain_of_ne hname (hbench b rfl) hother]

theorem replayLine_link_cases (limit : Nat) (vs : Variables) (hname : Identifier name)
    (hdot : '.' ∉ link) (hbench : ∀ b ∈ bench, Identifier b.name) :
    (∃ c, bench = some ⟨name, c⟩ ∧ replayLine limit vs bench (chain name [link]) =
      (linkReply limit vs c link).onState fun c => some ⟨name, c⟩) ∨
    replayLine limit vs bench (chain name [link]) = .silent bench := by
  by_cases hown : ∃ c, bench = some ⟨name, c⟩
  · obtain ⟨c, rfl⟩ := hown
    exact Or.inl ⟨c, rfl, replayLine_link_of_name hname hdot c⟩
  · exact Or.inr (replayLine_chain_of_ne hname hbench (not_exists.mp hown) [link])

/-- **A chain is replayed as its links are,** line by line. -/
theorem replayLine_chain (limit : Nat) (vs : Variables) (hname : Identifier name)
    (hne : links ≠ []) (hdots : ∀ link ∈ links, '.' ∉ link)
    (hbench : ∀ b ∈ bench, Identifier b.name) :
    replayLine limit vs bench (chain name links) =
      replay limit vs bench (linkLines name links) := by
  by_cases hown : ∃ c, bench = some ⟨name, c⟩
  · obtain ⟨c, rfl⟩ := hown
    rw [replayLine_chain_of_name hname hne hdots]
    exact onState_feed (fun c link hlink =>
      (replayLine_link_of_name hname (hdots link hlink) c).symm) c
  · have hother := not_exists.mp hown
    rw [replayLine_chain_of_ne hname hbench hother, replay]
    refine (feed_silent fun line hline => ?_).symm
    obtain ⟨link, -, rfl⟩ := List.mem_map.mp hline
    exact replayLine_chain_of_ne hname hbench hother [link]

theorem replay_chain (limit : Nat) (vs : Variables) (hname : Identifier name) (hne : links ≠ [])
    (hdots : ∀ link ∈ links, '.' ∉ link) (hbench : ∀ b ∈ bench, b.Sound)
    (before behind : List Text) :
    replay limit vs bench (before ++ [chain name links] ++ behind) =
      replay limit vs bench (before ++ linkLines name links ++ behind) := by
  -- the two differ in the middle only, which is reached with a sound bench
  have hmiddle : ∀ bench' out, feed (replayLine limit vs) bench before = .ok (bench', out) →
      feed (replayLine limit vs) bench' [chain name links] =
        feed (replayLine limit vs) bench' (linkLines name links) := by
    intro bench' out hbefore
    have hsound := (ensures_feed (ensures_replayLine limit vs) before hbench bench' out hbefore).1
    have hline := replayLine_chain limit vs hname hne hdots fun b hb => (hsound b hb).1
    rw [feed_singleton, hline, replay]
  simp only [replay, feed_append]
  rcases hbefore : feed (replayLine limit vs) bench before with cause | ⟨bench', out⟩
  · rfl
  · simp only [andThen_ok, hmiddle bench' out hbefore]

/-! ## Links that fail -/

theorem replayLine_link_of_none (hname : Identifier name) (hdot : '.' ∉ link)
    (hbench : ∀ b ∈ bench, Identifier b.name) (hlink : Action.ofText? link = none) :
    replayLine limit vs bench (chain name [link]) = .silent bench := by
  rcases replayLine_link_cases limit vs hname hdot hbench with ⟨c, rfl, hreply⟩ | hsilent
  · rw [hreply, linkReply, hlink]
    rfl
  · exact hsilent

theorem settle_ne_error (c : Computer) (result : Except Fault Computer) (cause : Abort) :
    settle c result ≠ .error cause := by
  cases result <;> nofun

theorem Action.eq_execute_of_error {c : Computer} {action : Action} {cause : Abort}
    (h : action.reply limit vs c = .error cause) : action = .execute := by
  rcases action with operand | ⟨mnemonic, _ | operand⟩ | _
  · rw [Action.reply] at h
    split at h
    · exact absurd h (settle_ne_error c _ cause)
    · cases h
  · exact absurd h (settle_ne_error c _ cause)
  · rw [Action.reply] at h
    split at h
    · exact absurd h (settle_ne_error c _ cause)
    · cases h
  · rfl

/-- **Of all links, only one that starts a run can abort.** -/
theorem replayLine_link_eq_error {cause : Abort} (hname : Identifier name) (hdot : '.' ∉ link)
    (hbench : ∀ b ∈ bench, Identifier b.name)
    (h : replayLine limit vs bench (chain name [link]) = .error cause) :
    Action.ofText? link = some .execute ∧ cause = .outOfCycles := by
  rcases replayLine_link_cases limit vs hname hdot hbench with ⟨c, rfl, hreply⟩ | hsilent
  · have hlink : linkReply limit vs c link = .error cause :=
      onState_eq_error_iff.mp (hreply.symm.trans h)
    refine ⟨?_, (reports_link limit vs c link).abort cause hlink⟩
    rw [linkReply] at hlink
    split at hlink
    · rename_i action haction
      rw [haction, Action.eq_execute_of_error hlink]
    · cases hlink
  · rw [hsilent] at h
    cases h

end Replays

/-! ## Calls -/

namespace Session

variable {s : Session} {r : Routine} {name line : Text} {links before behind : List Text}

/-- The session with another body of its routine. -/
def withBody (s : Session) (body : List Text) : Session :=
  { s with routine := s.routine.map fun r => { r with body } }

/-- **The body of a routine matters to calls only through its replay.** -/
theorem readLine_withBody {body : List Text} {limit : Nat} (hr : s.routine = some r)
    (hline : Line.classify s.routine line = .call)
    (hbody : replay limit s.vars s.bench body = replay limit s.vars s.bench r.body) :
    (s.withBody body).readLine limit line =
      (s.readLine limit line).onState fun s' => s'.withBody body := by
  have hr' : (s.withBody body).routine = some { r with body } := by rw [withBody, hr]; rfl
  have hcall : Line.classify (s.withBody body).routine line = .call := by
    rw [hr']
    rw [hr] at hline
    exact hline
  have hreplay : replay limit (s.withBody body).vars (s.withBody body).bench body =
      replay limit s.vars s.bench r.body := hbody
  rw [readLine_of_call limit hr hline, readLine_of_call limit hr' hcall, hreplay]
  rcases replay limit s.vars s.bench r.body with cause | ⟨bench, out⟩ <;> rfl

/-- **A chain may be written as one line for each link.** Let a session that comes from a fresh one
have a routine with a chain in its body. If the chain is replaced by its links, one to a line, a call
of the routine emits the same records, leaves the same variables and the same bench, and aborts for
the same cause if it does. When it is answered, each link has been answered in its turn and the ones
behind it have been carried out after it, whatever it has reported; a link that spells out nothing
does nothing, and the only links that can abort are those that start a run. -/
theorem chain_called_as_links {limit₀ : Nat} {inputs : List Input} {said : List Record}
    (hs : feed (Input.reply limit₀) fresh inputs = .ok (s, said)) (hr : s.routine = some r)
    (hbody : r.body = before ++ [chain name links] ++ behind) (hname : Identifier name)
    (hne : links ≠ []) (hdots : ∀ link ∈ links, '.' ∉ link)
    (hline : Line.classify s.routine line = .call) (limit : Nat) :
    (s.withBody (before ++ linkLines name links ++ behind)).readLine limit line =
      (s.readLine limit line).onState (·.withBody (before ++ linkLines name links ++ behind)) ∧
    (∀ s' out, s.readLine limit line = .ok (s', out) →
      ∀ first link last, links = first ++ link :: last →
        ∃ bench₁ bench₂ out₁ out₂ out₃,
          replay limit s.vars s.bench (before ++ linkLines name first) = .ok (bench₁, out₁) ∧
          replayLine limit s.vars bench₁ (chain name [link]) = .ok (bench₂, out₂) ∧
          replay limit s.vars bench₂ (linkLines name last ++ behind) = .ok (s'.bench, out₃) ∧
          out = out₁ ++ out₂ ++ out₃ ∧
          (Action.ofText? link = none → bench₂ = bench₁ ∧ out₂ = [])) ∧
    ∀ bench link cause, (∀ b ∈ bench, b.Sound) → link ∈ links →
      replayLine limit s.vars bench (chain name [link]) = .error cause →
        Action.ofText? link = some .execute ∧ cause = .outOfCycles := by
  have hsound : s.Sound := (ensures_feed (ensures_input limit₀) inputs sound_fresh s said hs).1
  have hreplay := replay_chain limit s.vars hname hne hdots hsound.bench before behind
  rw [← hbody] at hreplay
  refine ⟨readLine_withBody hr hline hreplay.symm, ?_, ?_⟩
  · rintro s' out h first link last rfl
    rw [readLine_of_call limit hr hline, hreplay] at h
    obtain ⟨bench, hlines, rfl⟩ := andThen_silent_eq_ok_iff.mp h
    rw [linkLines_append, linkLines_cons, ← List.append_assoc, List.append_assoc,
      List.cons_append] at hlines
    obtain ⟨bench₁, bench₂, out₁, out₂, out₃, hfirst, hlink, hlast, hout⟩ := feed_split hlines
    refine ⟨bench₁, bench₂, out₁, out₂, out₃, hfirst, hlink, hlast, hout, fun hnone => ?_⟩
    have hbench := (ensures_feed (ensures_replayLine limit s.vars) _ hsound.bench _ _ hfirst).1
    have hdot : '.' ∉ link := hdots link (by simp)
    rw [replayLine_link_of_none hname hdot (fun b hb => (hbench b hb).1) hnone] at hlink
    cases hlink
    exact ⟨rfl, rfl⟩
  · intro bench link cause hbench hlink h
    exact replayLine_link_eq_error hname (hdots link hlink) (fun b hb => (hbench b hb).1) h

/-- Links of which the first cannot run, the second spells out nothing, and the others print. -/
def mixedLinks : List Text :=
  ["execute()".toList, "?".toList, " insert(\"PUSH\", 7) ".toList, "insert(\"PRINT\")".toList,
    "set_address(0)".toList, "execute()".toList]

/-- A definition whose body has a chain of these links. -/
def mixedDefinition : List Input :=
  [.line "def f".toList, .line "c = Computer.new(2)".toList, .line (chain "c".toList mixedLinks),
    .line "end".toList]

/-- The first run fails and the second prints, also when each link has a line of its own. -/
theorem chain_called_as_links_mixed : ∃ s s',
    feed (Input.reply 3) fresh mixedDefinition = .ok (s, []) ∧
      s.readLine 3 "f".toList =
        .ok (s', [.failure (Fault.noInstruction 0).message, .printed 7]) ∧
      (s.withBody ("c = Computer.new(2)".toList :: linkLines "c".toList mixedLinks)).readLine 3
          "f".toList =
        .ok (s'.withBody ("c = Computer.new(2)".toList :: linkLines "c".toList mixedLinks),
          [.failure (Fault.noInstruction 0).message, .printed 7]) := by
  have hread : ∃ s r s', feed (Input.reply 3) fresh mixedDefinition = .ok (s, []) ∧
      s.routine = some r ∧
      r.body = ["c = Computer.new(2)".toList] ++ [chain "c".toList mixedLinks] ++ [] ∧
      Line.classify s.routine "f".toList = .call ∧
      s.readLine 3 "f".toList =
        .ok (s', [.failure (Fault.noInstruction 0).message, .printed 7]) :=
    ⟨_, _, _, rfl, rfl, rfl, rfl, rfl⟩
  obtain ⟨s, r, s', hs, hr, hbody, hcall, hline⟩ := hread
  have hdots : ∀ link ∈ mixedLinks, '.' ∉ link := by decide
  have h := (chain_called_as_links hs hr hbody (by decide) (by decide) hdots hcall 3).1
  rw [hline, List.append_nil] at h
  exact ⟨s, s', hs, hline, h⟩

end Session

end CellMachine
