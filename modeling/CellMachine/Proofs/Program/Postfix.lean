import CellMachine.Proofs.Program.StraightLine
import Mathlib.Algebra.Ring.Int.Defs
import Mathlib.Data.List.Infix

/-! # Postfix products

A product can be written as a program in many ways: its factors are pushed in order, and
multiplications stand between and behind them, wherever there are two values to multiply. Each such
program computes the same word. Multiplication wraps around at every step, and that does not matter:
wrapping the whole product once gives the same.

* `Word.product`: the wrapped product of words; `toInt_product`: its value.
* `Program.count`, `Program.IsPostfix`: how often an operation occurs, and the programs that write a
  product in postfix form.
* `fold_postfix`: along such a program, the number of values at hand is the number of pushes less that
  of multiplications, and their product is that of the factors pushed so far.
* `run_postfix`: running a product in postfix form prints the product. -/

namespace CellMachine

/-! ## Products of words -/

/-- **The product of words,** wrapped around into the range of words. -/
def Word.product (ws : List Word) : Word := Int64.ofInt (ws.map Int64.toInt).prod

namespace Word

theorem product_nil : product [] = 1 := rfl

theorem product_cons (w : Word) (ws : List Word) : product (w :: ws) = w * product ws := by
  rw [product, List.map_cons, List.prod_cons, Int64.ofInt_mul, Int64.ofInt_toInt, product]

theorem product_singleton (w : Word) : product [w] = w := by
  rw [product_cons, product_nil, Int64.mul_one]

theorem product_append (ws more : List Word) : product (ws ++ more) = product ws * product more := by
  rw [product, List.map_append, List.prod_append, Int64.ofInt_mul, product, product]

theorem product_mul_cons (a b : Word) (ws : List Word) :
    product (Int64.ofInt (a.toInt * b.toInt) :: ws) = product (a :: b :: ws) := by
  rw [product_cons, product_cons, product_cons, Int64.ofInt_mul, Int64.ofInt_toInt,
    Int64.ofInt_toInt, Int64.mul_assoc]

theorem toInt_product (ws : List Word) :
    (product ws).toInt = (ws.map Int64.toInt).prod.bmod (2 ^ 64) :=
  Int64.toInt_ofInt

end Word

/-! ## Postfix forms -/

namespace Program

/-- How often an operation occurs in a program. -/
def count (op : Opcode) (program : Program) : Nat := program.countP fun order => order.1 == op

/-- **Postfix forms of a product.** The factors are pushed in order; all else are multiplications, one
fewer than there are factors; and every beginning of the program but the empty one has fewer
multiplications than pushes. -/
structure IsPostfix (factors : List Word) (program : Program) : Prop where
  pushes : (program.filter fun order => order.1 == .push) = factors.map fun w => (.push, some w)
  others : ∀ order ∈ program, order.1 = .push ∨ order.1 = .mult
  count_mult : count .mult program + 1 = factors.length
  fewer : ∀ front, front <+: program → front ≠ [] → count .mult front < count .push front

theorem count_nil (op : Opcode) : count op [] = 0 := rfl

theorem count_cons (op : Opcode) (order : Opcode × Option Word) (program : Program) :
    count op (order :: program) = count op program + if order.1 = op then 1 else 0 := by
  simp [count, List.countP_cons]

theorem exists_first_factor {argument : Option Word} {program : Program} {factors : List Word}
    (h : (((.push, argument) :: program : Program).filter fun order => order.1 == .push) =
      factors.map fun w => (.push, some w)) :
    ∃ w rest, factors = w :: rest ∧ argument = some w ∧
      (program.filter fun order => order.1 == .push) = rest.map fun w => (.push, some w) := by
  cases factors with
  | nil => simp at h
  | cons w rest =>
    rw [List.filter_cons_of_pos (by rfl), List.map_cons, List.cons.injEq, Prod.mk.injEq] at h
    exact ⟨w, rest, rfl, h.1.2, h.2⟩

end Program

/-! ## The fold over a postfix form -/

namespace Worksheet

/-- **What multiplying leaves.** From one worksheet to the other, factors were pushed and a number of
multiplications done: that many values are fewer than there would be, and the product of the values is
that of the values before and the factors. -/
structure Yields (e e' : Worksheet) (factors : List Word) (multiplications : Nat) : Prop where
  printed_eq : e'.printed = e.printed
  length_eq : e'.values.length + multiplications = e.values.length + factors.length
  product_eq : Word.product e'.values = Word.product e.values * Word.product factors

theorem Yields.refl (e : Worksheet) : e.Yields e [] 0 where
  printed_eq := rfl
  length_eq := rfl
  product_eq := by rw [Word.product_nil, Int64.mul_one]

theorem Yields.trans {e e₁ e' : Worksheet} {factors more : List Word} {m n : Nat}
    (h : e.Yields e₁ factors m) (h' : e₁.Yields e' more n) :
    e.Yields e' (factors ++ more) (m + n) where
  printed_eq := h'.printed_eq.trans h.printed_eq
  length_eq := by
    have hlength := h.length_eq
    have hlength' := h'.length_eq
    rw [List.length_append]
    omega
  product_eq := by
    rw [h'.product_eq, h.product_eq, Word.product_append, Int64.mul_assoc]

theorem fold_cons_of_ok {e e₁ : Worksheet} {i : Nat} {s : Straight} {order : Opcode × Option Word}
    (hs : Straight.of? order = some s) (hstep : e.step i s = .ok e₁) (program : Program) :
    e.fold (((order :: program).filterMap Straight.of?).zipIdx i) =
      e₁.fold ((program.filterMap Straight.of?).zipIdx (i + 1)) := by
  rw [List.filterMap_cons_some hs, List.zipIdx_cons, fold_cons, hstep]

theorem fold_append (e : Worksheet) (code more : List (Straight × Nat)) :
    e.fold (code ++ more) = e.fold code >>= fun e' => e'.fold more :=
  List.foldlM_append

theorem step_push (e : Worksheet) (i : Nat) (w : Word) :
    ∃ e₁, e.step i (.push w) = .ok e₁ ∧ e.Yields e₁ [w] 0 := by
  refine ⟨{ e with values := w :: e.values }, rfl, rfl, rfl, ?_⟩
  rw [Word.product_cons, Word.product_singleton, Int64.mul_comm]

theorem step_mult {e : Worksheet} (h : 1 < e.values.length) (i : Nat) :
    ∃ e₁, e.step i .mult = .ok e₁ ∧ e.Yields e₁ [] 1 := by
  obtain ⟨values, payload, printed⟩ := e
  match values, h with
  | a :: b :: rest, _ =>
    refine ⟨_, rfl, rfl, rfl, ?_⟩
    rw [Word.product_mul_cons, Word.product_nil, Int64.mul_one]

/-- **The fold over pushes and multiplications.** If every beginning leaves a value at hand, no
multiplication fails. -/
theorem fold_postfix {program : Program} {factors : List Word} {e : Worksheet}
    (hpushes : (program.filter fun order => order.1 == .push) =
      factors.map fun w => (.push, some w))
    (hothers : ∀ order ∈ program, order.1 = .push ∨ order.1 = .mult)
    (hfewer : ∀ front, front <+: program → front ≠ [] →
      Program.count .mult front < e.values.length + Program.count .push front) (i : Nat) :
    ∃ e', e.fold ((program.filterMap Straight.of?).zipIdx i) = .ok e' ∧
      e.Yields e' factors (Program.count .mult program) := by
  induction program generalizing factors e i with
  | nil =>
    obtain rfl : factors = [] := by simpa using hpushes.symm
    exact ⟨e, rfl, .refl e⟩
  | cons order program ih =>
    obtain ⟨op, argument⟩ := order
    obtain ⟨hop, hrest⟩ := List.forall_mem_cons.mp hothers
    -- what the beginnings of the program say of those of its rest
    have hfront : ∀ front, front <+: program →
        Program.count .mult ((op, argument) :: front) <
          e.values.length + Program.count .push ((op, argument) :: front) := by
      intro front hprefix
      exact hfewer _ (List.cons_prefix_cons.mpr ⟨rfl, hprefix⟩) (List.cons_ne_nil _ _)
    simp only [Program.count_cons] at hfront ⊢
    rcases hop with hop | hop
    · obtain rfl : op = .push := hop
      obtain ⟨w, rest, rfl, rfl, hpushes'⟩ := Program.exists_first_factor hpushes
      obtain ⟨e₁, hstep, hyields⟩ := e.step_push i w
      have hlength : e₁.values.length = e.values.length + 1 := hyields.length_eq
      obtain ⟨e', hfold, hyields'⟩ := ih (e := e₁) hpushes' hrest (fun front hprefix _ => by
        have hlt := hfront front hprefix
        simp only [reduceCtorEq, if_false, if_true] at hlt
        omega) (i + 1)
      have htrans := hyields.trans hyields'
      rw [Nat.zero_add] at htrans
      exact ⟨e', (fold_cons_of_ok rfl hstep program).trans hfold, htrans⟩
    · obtain rfl : op = .mult := hop
      have htwo := hfront [] List.nil_prefix
      simp only [reduceCtorEq, if_false, if_true, Program.count_nil] at htwo
      obtain ⟨e₁, hstep, hyields⟩ := step_mult (e := e) (by omega) i
      have hlength : e₁.values.length + 1 = e.values.length := hyields.length_eq
      obtain ⟨e', hfold, hyields'⟩ := ih (e := e₁) hpushes hrest (fun front hprefix _ => by
        have hlt := hfront front hprefix
        simp only [reduceCtorEq, if_false, if_true] at hlt
        omega) (i + 1)
      have htrans := hyields.trans hyields'
      rw [Nat.add_comm] at htrans
      exact ⟨e', (fold_cons_of_ok rfl hstep program).trans hfold, htrans⟩

end Worksheet

/-! ## Running a postfix form -/

namespace Program

theorem loadFault?_eq_none {size i : Nat} {program : Program}
    (hpush : ∀ order ∈ program, order ≠ (.push, none)) (hlength : i + program.length ≤ size) :
    loadFault? size (program.zipIdx i) = none := by
  induction program generalizing i with
  | nil => rfl
  | cons order program ih =>
    obtain ⟨horder, hrest⟩ := List.forall_mem_cons.mp hpush
    rw [List.length_cons] at hlength
    have hi : i ≠ size := by omega
    rw [List.zipIdx_cons, loadFault?_cons, if_neg horder, if_neg hi]
    exact ih hrest (by omega)

variable {factors : List Word} {program : Program}

theorem IsPostfix.fold_eq (h : IsPostfix factors program) :
    ∃ payload, Worksheet.blank.fold (program.filterMap Straight.of?).zipIdx =
      .ok ⟨[Word.product factors], payload, #[]⟩ := by
  have hfewer : ∀ front, front <+: program → front ≠ [] →
      count .mult front < Worksheet.blank.values.length + count .push front := by
    intro front hprefix hne
    have hlt := h.fewer front hprefix hne
    omega
  obtain ⟨⟨values, payload, printed⟩, hfold, hyields⟩ :=
    Worksheet.fold_postfix h.pushes h.others hfewer 0
  have hlength : values.length + count .mult program = 0 + factors.length := hyields.length_eq
  have hcount := h.count_mult
  obtain ⟨w, rfl⟩ := List.length_eq_one_iff.mp (show values.length = 1 by omega)
  have hproduct : w = Word.product factors := by
    have hyielded := hyields.product_eq
    rw [Word.product_singleton] at hyielded
    rw [hyielded]
    exact Int64.one_mul _
  obtain rfl : printed = #[] := hyields.printed_eq
  exact ⟨payload, by rw [← hproduct]; exact hfold⟩

theorem IsPostfix.ne_push_none (h : IsPostfix factors program) :
    ∀ order ∈ program, order ≠ (.push, none) := by
  rintro order horder rfl
  have hfilter : (.push, none) ∈ program.filter fun order => order.1 == .push :=
    List.mem_filter.mpr ⟨horder, rfl⟩
  rw [h.pushes] at hfilter
  obtain ⟨w, -, hw⟩ := List.mem_map.mp hfilter
  cases hw

theorem IsPostfix.ne_jump (h : IsPostfix factors program) :
    ∀ order ∈ program, order.1 ≠ .call ∧ order.1 ≠ .ret := by
  intro order horder
  rcases h.others order horder with hop | hop <;> simp [hop]

/-- **Postfix products.** Any postfix form of a product, with a print and a stop behind it, runs to the
stop on every computer that has room for it. What it prints, and its payload, is the product of the
factors reduced modulo `2 ^ 64` into the range of words, whatever the form. -/
theorem run_postfix (h : IsPostfix factors program) (size : Word) (limit : Nat)
    (hroom : program.length + 2 ≤ Store.capacityFor size)
    (hsize : 24 * Store.capacityFor size ≤ 2 ^ 63 - 1) (hlimit : Store.capacityFor size < limit) :
    ∃ p : Word, p.toInt = (factors.map Int64.toInt).prod.bmod (2 ^ 64) ∧
      run limit size (program ++ [(.print, none), (.stop, none)]) =
        .ok (.ok ⟨some p, #[p], program.length + 1⟩) := by
  have hstraight : ∀ order ∈ program ++ [(.print, none), (.stop, none)],
      order.1 ≠ .call ∧ order.1 ≠ .ret :=
    List.forall_mem_append.mpr ⟨h.ne_jump, by decide⟩
  have hpush : ∀ order ∈ program ++ [(.print, none), (.stop, none)], order ≠ (.push, none) :=
    List.forall_mem_append.mpr ⟨h.ne_push_none, by decide⟩
  have hfault : loadFault? (Store.capacityFor size)
      (program ++ [(Opcode.print, none), (Opcode.stop, none)]).zipIdx = none :=
    loadFault?_eq_none hpush (by simp; omega)
  have hlength : (program.filterMap Straight.of?).length = program.length := by
    have hfits : loadFault? (Store.capacityFor size) program.zipIdx = none :=
      loadFault?_eq_none h.ne_push_none (by omega)
    exact length_filterMap_of? h.ne_jump hfits
  have hcode : (program ++ [(Opcode.print, none), (Opcode.stop, none)]).filterMap Straight.of? =
      program.filterMap Straight.of? ++ [.print, .stop] := by
    rw [List.filterMap_append]
    rfl
  obtain ⟨payload, hfold⟩ := h.fold_eq
  refine ⟨Word.product factors, Word.toInt_product factors, ?_⟩
  rw [run_of_fits hsize hstraight hfault hlimit, if_neg (by simp), hcode, List.zipIdx_append,
    Worksheet.fold_append, hfold, hlength, Nat.zero_add]
  rfl

/-- A postfix form of the product of two, three and the greatest word, which multiplies the first two
before the third is pushed. -/
def earlyProduct : Program :=
  [(.push, some 2), (.push, some 3), (.mult, none), (.push, some 9223372036854775807),
    (.mult, some 7)]

theorem isPostfix_earlyProduct : IsPostfix [2, 3, 9223372036854775807] earlyProduct where
  pushes := rfl
  others := by decide
  count_mult := rfl
  fewer front hfront := by
    rw [← List.mem_inits] at hfront
    revert front
    decide

/-- Six times the greatest word wraps around to minus six. The requested size is zero, which stands for
a hundred slots. -/
theorem run_postfix_earlyProduct :
    IsPostfix [2, 3, 9223372036854775807] earlyProduct ∧
      earlyProduct.length + 2 ≤ Store.capacityFor 0 ∧ 24 * Store.capacityFor 0 ≤ 2 ^ 63 - 1 ∧
      run 101 0 (earlyProduct ++ [(.print, none), (.stop, none)]) =
        .ok (.ok ⟨some (-6), #[-6], 6⟩) := by
  refine ⟨isPostfix_earlyProduct, by decide, by decide, ?_⟩
  obtain ⟨p, hp, hrun⟩ :=
    run_postfix isPostfix_earlyProduct 0 101 (by decide) (by decide) (by decide)
  obtain rfl : p = -6 := Int64.toInt_inj.mp hp
  exact hrun

end Program

end CellMachine
