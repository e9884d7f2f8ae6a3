import CellMachine.Proofs.Computer.Growth
import CellMachine.Proofs.Script.Chain
import CellMachine.Proofs.Session.Requests

/-! # How calls grow stores

A call can make the store on the bench longer, by no more slots than its runs take cycles, and it
has no more runs than the lines of the routine have characters. So a bound on what the lines ask for
and on their *extent* bounds the store.

* `extent`, `length_requests_le`: the characters of lines, and that they are at least as many as the
  requests of the lines.
* `AsksAtMost`: lines that construct no store beyond a given length.
* `Spans`, `spans_of_carried`: how long the store on the bench is, before and after requests.
* `Session.RunsOn`, `length_of_runsOn`: the stores that the runs of a call pass through. -/

namespace CellMachine

/-! ## The requests of lines -/

/-- **The extent of lines:** their characters, and one more for the end of each. -/
def extent (lines : List Text) : Nat := (lines.map fun line => line.length + 1).sum

@[simp]
theorem extent_cons (line : Text) (lines : List Text) :
    extent (line :: lines) = line.length + 1 + extent lines := by
  rw [extent, List.map_cons, List.sum_cons, extent]

@[simp]
theorem extent_append (lines more : List Text) :
    extent (lines ++ more) = extent lines + extent more := by
  rw [extent, List.map_append, List.sum_append, extent, extent]

theorem length_le_length_intercalate (links : List Text) :
    links.length ≤ (['.'].intercalate links).length + 1 := by
  induction links with
  | nil => exact Nat.zero_le _
  | cons link links ih =>
    cases links with
    | nil => simp
    | cons next links =>
      rw [List.intercalate_cons_cons, List.length_cons, List.length_append, List.length_append,
        List.length_singleton]
      omega

theorem length_links_le {name line : Text} {links : List Text}
    (h : links? name line = some links) : links.length ≤ line.length := by
  obtain ⟨-, -, hline⟩ := links?_eq_some_iff.mp h
  have htrim : (Text.trimStart line).length ≤ line.length :=
    (List.dropWhile_suffix Text.isBlank).length_le
  have hlinks := length_le_length_intercalate links
  rw [hline, chain, List.length_append, List.length_cons] at htrim
  omega

theorem length_lineRequests_le (name : Option Text) (line : Text) :
    (lineRequests name line).length ≤ line.length + 1 := by
  rw [lineRequests]
  cases construction? line with
  | some named =>
    dsimp only
    cases Word.ofInt? named.2 <;> simp
  | none =>
    have hlinks : ((name.bind fun name => links? name line).getD []).length ≤ line.length := by
      cases hsome : name.bind fun name => links? name line with
      | none => exact Nat.zero_le _
      | some links =>
        obtain ⟨name', -, hline⟩ := Option.bind_eq_some_iff.mp hsome
        exact length_links_le hline
    have hactions := List.length_filterMap_le Action.ofText?
      ((name.bind fun name => links? name line).getD [])
    dsimp only
    rw [List.length_map]
    omega

theorem length_requests_le (name : Option Text) (lines : List Text) :
    (requests name lines).length ≤ extent lines := by
  induction lines generalizing name with
  | nil => exact Nat.zero_le _
  | cons line lines ih =>
    have hline := length_lineRequests_le name line
    have hlines := ih (nameAfter name line)
    rw [requests, List.length_append, extent_cons]
    omega

/-- **Lines that ask for `most` slots at most,** or for so many that none are laid out at all. -/
def AsksAtMost (most : Nat) (line : Text) : Prop :=
  ∀ named ∈ construction? line, named.2 ≤ most ∨ 2 ^ 63 - 1 < 24 * named.2

instance (most : Nat) : DecidablePred (AsksAtMost most) := fun line =>
  inferInstanceAs (Decidable
    (∀ named ∈ construction? line, named.2 ≤ most ∨ 2 ^ 63 - 1 < 24 * named.2))

theorem exists_line_of_build_mem {name : Option Text} {lines : List Text} {built : Text} {w : Word}
    (h : .build built w ∈ requests name lines) :
    ∃ line ∈ lines, ∃ size,
      construction? line = some (built, size) ∧ Word.ofInt? size = some w := by
  induction lines generalizing name with
  | nil => cases h
  | cons line lines ih =>
    rw [requests, List.mem_append] at h
    rcases h with h | h
    · rw [lineRequests] at h
      cases hline : construction? line with
      | some named =>
        obtain ⟨built', size⟩ := named
        rw [hline] at h
        obtain ⟨w', hw', heq⟩ := List.mem_map.mp h
        cases heq
        exact ⟨line, List.mem_cons_self .., size, hline, Option.mem_toList.mp hw'⟩
      | none =>
        rw [hline] at h
        obtain ⟨action, -, heq⟩ := List.mem_map.mp h
        cases heq
    · obtain ⟨line', hmem, hline'⟩ := ih h
      exact ⟨line', List.mem_cons_of_mem _ hmem, hline'⟩

theorem length_of_build_mem {most : Nat} {name : Option Text} {lines : List Text} {built : Text}
    {w : Word} {c : Computer} (hlines : ∀ line ∈ lines, AsksAtMost most line)
    (hdefault : Store.defaultCapacity ≤ most) (h : .build built w ∈ requests name lines)
    (hnew : Computer.ofSize w = .ok c) : c.store.length ≤ most := by
  obtain ⟨line, hmem, size, hline, hw⟩ := exists_line_of_build_mem h
  have hvalue : w.toInt = size := Word.toInt_of_ofInt? hw
  have hfits : ¬ 2 ^ 63 - 1 < 24 * size := by
    intro hlarge
    rw [(Computer.ofSize_eq_error_iff hvalue).mpr ⟨rfl, hlarge⟩] at hnew
    cases hnew
  have hsize : size ≤ most := (hlines line hmem _ hline).resolve_right hfits
  rw [Computer.ofSize_eq_ok hnew, Store.length_vacant, Store.capacityFor, hvalue]
  split <;> omega

/-! ## The bench -/

/-- **The store on the bench has at most `n` slots.** -/
def Spans (n : Nat) (bench : Option Bench) : Prop := ∀ b ∈ bench, b.computer.store.length ≤ n

theorem Spans.mono {n m : Nat} {bench : Option Bench} (h : Spans n bench) (hle : n ≤ m) :
    Spans m bench := fun b hb => Nat.le_trans (h b hb) hle

theorem spans_some_iff {n : Nat} {b : Bench} :
    Spans n (some b) ↔ b.computer.store.length ≤ n := by
  simp [Spans]

section Carried

variable {limit : Nat} {vs : Variables}

theorem length_of_effect {c c' : Computer} {action : Action} {out : List Record}
    (h : action.Effect limit vs c c' out) : c'.store.length ≤ c.store.length + limit := by
  cases h with
  | unnamed | refused => exact Nat.le_add_right _ _
  | edited _ _ confined =>
    rw [confined.length]
    exact Nat.le_add_right _ _
  | ran | broke => exact c.length_execute_le limit

/-- **Requests make the store longer by the cycles of a run each, at most.** -/
theorem spans_of_carried {bench bench' : Option Bench} {requests : List Request}
    {outs : List (List Record)} (h : Carried limit vs bench requests outs bench') {n : Nat}
    (hnew : ∀ built w c, .build built w ∈ requests → Computer.ofSize w = .ok c →
      c.store.length ≤ n) (hbench : Spans n bench) :
    Spans (n + limit * requests.length) bench' := by
  induction h generalizing n with
  | nil => exact hbench
  | @build _ _ name w c rest _ new _ ih =>
    have hbuilt : Spans n (some ⟨name, c⟩) :=
      spans_some_iff.mpr (hnew name w c (List.mem_cons_self ..) new)
    refine (ih (fun built w c hmem => hnew built w c (List.mem_cons_of_mem _ hmem)) hbuilt).mono ?_
    rw [List.length_cons, Nat.mul_succ]
    omega
  | @act _ name c c' _ rest _ _ effect _ ih =>
    have hacted : Spans (n + limit) (some ⟨name, c'⟩) := by
      have hbefore : c.store.length ≤ n := spans_some_iff.mp hbench
      have hafter : c'.store.length ≤ c.store.length + limit := length_of_effect effect
      exact spans_some_iff.mpr (by dsimp only; omega)
    refine (ih (fun built w c hmem hok => ?_) hacted).mono ?_
    · exact Nat.le_add_right_of_le (hnew built w c (List.mem_cons_of_mem _ hmem) hok)
    · rw [List.length_cons, Nat.mul_succ]
      omega

end Carried

/-! ## Calls -/

namespace Session

variable {s s' : Session} {r : Routine} {line : Text} {limit most n : Nat} {out : List Record}
  {store : Store}

/-- **The stores that runs pass through** while a session answers a line: the line calls the
routine, and among the requests that are carried out is a run. -/
def RunsOn (limit : Nat) (s : Session) (line : Text) (store : Store) : Prop :=
  Line.classify s.routine line = .call ∧ ∃ r ∈ s.routine, ∃ before behind outs b,
    requests (s.bench.map Bench.name) r.body = before ++ .act .execute :: behind ∧
      Carried limit s.vars s.bench before outs (some b) ∧ b.computer.canStart ∧
        ∃ cycles ≤ limit, ∃ k, b.computer.start.after cycles = some k ∧ k.computer.store = store

section Bounded

variable (hasks : ∀ r ∈ s.routine, ∀ l ∈ r.body, AsksAtMost most l)
  (hdefault : Store.defaultCapacity ≤ most) (hmost : most ≤ n) (hbench : Spans n s.bench)
include hasks hdefault hmost hbench

/-- **A call makes the store longer** by the cycles of one run for each character, at most. -/
theorem spans_of_call {bench' : Option Bench} (hr : s.routine = some r)
    (h : replay limit s.vars s.bench r.body = .ok (bench', out)) :
    Spans (n + limit * extent r.body) bench' := by
  obtain ⟨outs, hcarried, -⟩ := replay_eq_ok_iff_carried.mp h
  refine (spans_of_carried hcarried (fun built w c hmem hok => ?_) hbench).mono ?_
  · exact Nat.le_trans (length_of_build_mem (hasks r hr) hdefault hmem hok) hmost
  · exact Nat.add_le_add_left (Nat.mul_le_mul_left _ (length_requests_le _ _)) _

theorem length_of_runsOn {read : Nat} (hread : ∀ r ∈ s.routine, extent r.body ≤ read)
    (h : s.RunsOn limit line store) : store.length ≤ n + limit * read := by
  obtain ⟨-, r, hr, before, behind, outs, b, hrequests, hcarried, -, cycles, hcycles, k, hafter,
    rfl⟩ := h
  have hnew : ∀ built w c, .build built w ∈ before → Computer.ofSize w = .ok c →
      c.store.length ≤ n := by
    intro built w c hmem hok
    have hbuild : .build built w ∈ requests (s.bench.map Bench.name) r.body := by
      rw [hrequests]
      exact List.mem_append_left _ hmem
    exact Nat.le_trans (length_of_build_mem (hasks r hr) hdefault hbuild hok) hmost
  have hstart : b.computer.store.length ≤ n + limit * before.length :=
    spans_some_iff.mp (spans_of_carried hcarried hnew hbench)
  have hrun : k.computer.store.length ≤ b.computer.store.length + cycles :=
    Config.length_after_le hafter
  have hcount : before.length + 1 ≤ read := by
    have hrequested := length_requests_le (s.bench.map Bench.name) r.body
    have hextent := hread r hr
    rw [hrequests, List.length_append, List.length_cons] at hrequested
    omega
  calc k.computer.store.length
    _ ≤ n + limit * before.length + limit := by omega
    _ = n + limit * (before.length + 1) := by rw [Nat.mul_succ, Nat.add_assoc]
    _ ≤ n + limit * read := Nat.add_le_add_left (Nat.mul_le_mul_left _ hcount) _

end Bounded

end Session

end CellMachine
