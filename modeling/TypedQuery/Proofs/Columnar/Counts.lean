import Mathlib.Algebra.Ring.Int.Defs
import Mathlib.Data.Option.NAry
import TypedQuery.Proofs.Columnar.RowView

/-!
# Counts row by row

Whole numbers, dates, timestamps and intervals are stored as counts. A column of them
is read here as a function from rows to counts (`Column.Counts`), with nothing where
the row is null. Conversions between such types act on the counts one by one.
Arithmetic on 64 bits is checked: it succeeds if every result fits, a null being no
result, and overflows otherwise.

An expression on whole numbers of 64 bits evaluates to a count in every row, or it
overflows in one. It tallies some counts under a condition (`Expr.Tallies`) if it evaluates
to them where the condition holds, and overflows where it does not. The condition of an
operation is that of its operands and that each of its own results fits.
-/

namespace TypedQuery

theorem exists_of_mapM_eq_error {ε α β : Type} {f : α → Except ε β} {xs : List α} {e : ε}
    (h : xs.mapM f = .error e) :
    ∃ x ∈ xs, f x = .error e := by
  induction xs with
  | nil => cases h
  | cons x rest ih =>
      rw [List.mapM_cons] at h
      rcases bind_eq_error.1 h with h | ⟨y, -, h⟩
      · exact ⟨x, List.mem_cons_self, h⟩
      · rcases bind_eq_error.1 h with h | ⟨ys, -, h⟩
        · obtain ⟨x', hx', h⟩ := ih h
          exact ⟨x', List.mem_cons_of_mem _ hx', h⟩
        · cases h

theorem Instant.fitsInt64_iff {n : Int} : fitsInt64 n = true ↔ -2 ^ 63 ≤ n ∧ n < 2 ^ 63 := by
  have hmin : Int64.minValue.toInt = -2 ^ 63 := rfl
  have hmax : Int64.maxValue.toInt = 2 ^ 63 - 1 := rfl
  simp only [fitsInt64, hmin, hmax, Bool.and_eq_true, decide_eq_true_eq]
  omega

/-- Types whose cells are counts or null. -/
def Physical.countable : Physical → Bool
  | int32 | int64 | date | timestamp _ | null => true
  | boolean | float64 | text | binary | list _ => false

namespace Cell

variable {cell : Cell} {t : Physical}

theorem eq_int_or_missing (ht : t.countable = true) (h : cell.fits t = true) :
    (∃ n, cell = .int n) ∨ ∃ r, cell = .missing r := by
  cases cell with
  | int n => exact .inl ⟨n, rfl⟩
  | missing r => exact .inr ⟨r, rfl⟩
  | _ => cases t <;> first | (cases h; done) | cases ht

theorem int?_eq_some {n : Int} : cell.int? = some n ↔ cell = .int n := by
  cases cell <;> simp [int?]

theorem int?_eq_none (ht : t.countable = true) (h : cell.fits t = true) :
    cell.int? = none ↔ cell.isNull = true := by
  rcases eq_int_or_missing ht h with ⟨n, rfl⟩ | ⟨r, rfl⟩ <;> simp [int?, isNull]

theorem int?_ofOption (n : Option Int) : (ofOption int n).int? = n := by
  cases n <;> rfl

/-- A count as it is stored, if there is one and it fits. -/
def kept (fits : Int → Bool) : Option Int → Except ComputeFailure Cell
  | some n => if fits n then .ok (.int n) else .error .arithmeticOverflow
  | none => .ok .null

variable {fits : Int → Bool} {n : Option Int} {failure : ComputeFailure}

theorem kept_some (k : Int) :
    kept fits (some k) = if fits k then .ok (.int k) else .error .arithmeticOverflow := rfl

theorem kept_eq_ok : kept fits n = .ok cell ↔ cell = ofOption int n ∧ ∀ k, n = some k →
    fits k = true := by
  cases n with
  | none => exact ⟨fun h => ⟨(Except.ok.inj h).symm, nofun⟩, fun h => congrArg _ h.1.symm⟩
  | some k =>
      rw [kept_some]
      by_cases hk : fits k = true
      · rw [if_pos hk]
        exact ⟨fun h => ⟨(Except.ok.inj h).symm, fun _ hn => Option.some.inj hn ▸ hk⟩,
          fun h => congrArg _ h.1.symm⟩
      · rw [if_neg hk]
        exact ⟨nofun, fun h => absurd (h.2 k rfl) hk⟩

theorem kept_eq_error : kept fits n = .error failure
    ↔ failure = .arithmeticOverflow ∧ ∃ k, n = some k ∧ fits k = false := by
  cases n with
  | none => exact ⟨nofun, fun ⟨_, _, hn, _⟩ => nomatch hn⟩
  | some k =>
      rw [kept_some]
      by_cases hk : fits k = true
      · rw [if_pos hk]
        refine ⟨nofun, fun ⟨_, k', hn, hk'⟩ => ?_⟩
        cases hn
        exact absurd hk (Bool.eq_false_iff.1 hk')
      · rw [if_neg hk]
        exact ⟨fun h => ⟨(Except.error.inj h).symm, k, rfl, Bool.eq_false_iff.2 hk⟩,
          fun h => congrArg _ h.1.symm⟩

end Cell

namespace Column

variable {c l r : Column} {s t : Physical} {rows : Nat} {f g : Nat → Option Int}

/-- The column has the type and a row for each of so many rows, where it holds the
counts that are given. -/
structure Counts (c : Column) (t : Physical) (rows : Nat) (f : Nat → Option Int) : Prop where
  type_eq : c.type = t
  typed : c.Typed
  spans : c.Spans rows
  count_eq : ∀ i < rows, (c.row i).int? = f i

/-- Every column that spans the rows has some counts in them. -/
theorem Typed.counts (h : c.Typed) (hspans : c.Spans rows) :
    c.Counts c.type rows fun i => (c.row i).int? :=
  ⟨rfl, h, hspans, fun _ _ => rfl⟩

namespace Counts

theorem isNull_iff (h : c.Counts t rows f) (ht : t.countable = true) {i : Nat}
    (hi : i < rows) :
    (c.row i).isNull = true ↔ f i = none := by
  rw [← h.count_eq i hi]
  exact (Cell.int?_eq_none ht (h.type_eq ▸ h.typed _ (row_mem h.spans hi))).symm

theorem eq_int_iff (h : c.Counts t rows f) {i : Nat} (hi : i < rows) {n : Int} :
    c.row i = .int n ↔ f i = some n := by
  rw [← h.count_eq i hi]
  exact Cell.int?_eq_some.symm

theorem congr (h : c.Counts t rows f) (hfg : ∀ i < rows, f i = g i) : c.Counts t rows g :=
  ⟨h.type_eq, h.typed, h.spans, fun i hi => (h.count_eq i hi).trans (hfg i hi)⟩

/-- One count in every row. -/
theorem constant (n : Int) (ht : Cell.fits t (.int n) = true) (rows : Nat) :
    (Column.constant t (.int n) rows).Counts t rows (fun _ => some n) where
  type_eq := rfl
  typed := typed_constant ht rows
  spans := .inl List.length_replicate
  count_eq i hi := by
    have hcell : (Column.constant t (.int n) rows).cells[i]? = some (.int n) := by
      simp [Column.constant, hi]
    rw [row_eq (c := Column.constant t (.int n) rows) List.length_replicate hi hcell]
    rfl

/-! ## Conversions -/

/-- A conversion that makes a count of every count. -/
theorem cast (h : c.Counts s rows f) (hs : s.countable = true)
    (hcasts : s.casts t = true) (hne : s ≠ t) (hlist : t.isList = false) {g : Int → Int}
    (hg : ∀ n, Cast.filled s t (.int n) = .ok (.int (g n))) :
    ∃ d, c.cast t = .ok d ∧ d.length = c.length ∧ d.Counts t rows fun i => (f i).map g := by
  obtain ⟨rfl, htyped, hspans, hrow⟩ := h
  have hint (n : Int) : Cast.cell c.type t (.int n) = .ok (.int (g n)) := by
    rw [Cast.cell_filled hlist rfl, if_neg hne, hg]
  obtain ⟨cells, hcells⟩ : ∃ cells, c.cells.mapM (Cast.cell c.type t) = .ok cells :=
    mapM_isOk fun cell hcell => by
    rcases Cell.eq_int_or_missing hs (htyped cell hcell) with ⟨n, rfl⟩ | ⟨r, rfl⟩
    · exact ⟨_, hint n⟩
    · exact ⟨_, Cast.cell_missing hlist r⟩
  have hcast : c.cast t = .ok ⟨t, cells⟩ := by
    rw [Column.cast, if_neg hne, if_pos hcasts, castCells_eq_mapM, hcells]
  have hlength := length_cast hcast
  refine ⟨_, hcast, hlength, rfl, (htyped.cast t _ hcast).2,
    by rwa [Spans, hlength], fun i hi => ?_⟩
  have hcell := row_cast hcast hspans hi
  rw [Converts, if_neg hne] at hcell
  rw [← hrow i hi]
  rcases Cell.eq_int_or_missing hs (htyped _ (row_mem hspans hi)) with ⟨n, hn⟩ | ⟨r, hr⟩
  · rw [hn, hint] at hcell
    rw [hn, ← Except.ok.inj hcell]
    rfl
  · rw [hr, Cast.cell_missing hlist] at hcell
    rw [hr, ← Except.ok.inj hcell]
    rfl

/-- Counts of every type are whole numbers of 64 bits. -/
theorem toInt64 (h : c.Counts t rows f) (ht : t.countable = true) :
    ∃ d, c.cast .int64 = .ok d ∧ d.length = c.length ∧ d.Counts .int64 rows f := by
  by_cases hne : t = .int64
  · subst hne
    exact ⟨c, by rw [Column.cast, if_pos h.type_eq], rfl, h⟩
  · have hcasts : t.casts .int64 = true := by cases t <;> first | rfl | cases ht
    obtain ⟨d, hd, hlength, hcounts⟩ := h.cast ht hcasts hne rfl (g := id) fun _ => rfl
    exact ⟨d, hd, hlength, hcounts.congr fun i _ => congrFun Option.map_id (f i)⟩

/-! ## Arithmetic -/

theorem exists_pairs (hl : l.Spans rows) (hr : r.Spans rows)
    (hlength : l.length = rows ∨ r.length = rows) :
    ∃ ps, pairs l r = .ok ps ∧ ps.length = rows := by
  have hpairs : ∃ ps, pairs l r = .ok ps := by
    unfold pairs
    split
    · exact ⟨_, rfl⟩
    · next hne =>
        split
        · exact ⟨_, rfl⟩
        · exact ⟨_, rfl⟩
        · next hl' hr' =>
            have hone : l.length = 1 ∨ r.length = 1 := by
              unfold Spans at hl hr
              omega
            rcases hone with hone | hone
            · obtain ⟨cell, hcell⟩ := List.length_eq_one_iff.1 hone
              exact absurd hcell (hl' cell)
            · obtain ⟨cell, hcell⟩ := List.length_eq_one_iff.1 hone
              exact absurd hcell (hr' cell)
  obtain ⟨ps, hps⟩ := hpairs
  refine ⟨ps, hps, ?_⟩
  obtain ⟨hmem, hcovers⟩ := covers_pairs l r ps hps
  have hl' := hcovers l.length (by simp)
  have hr' := hcovers r.length (by simp)
  simp only [List.mem_cons, List.not_mem_nil, or_false] at hmem
  unfold Spans at hl hr
  omega

/-- Checked arithmetic on two cells. -/
theorem checked_eq {op : Arithmetic} {fits : Int → Bool} {a b : Cell} {k : Int → Int → Int}
    (hop : ∀ x y, a.int? = some x → b.int? = some y → op.onInts x y = .ok (k x y)) :
    op.checked fits a b = Cell.kept fits (Option.map₂ k a.int? b.int?) := by
  cases a with
  | int x =>
      cases b with
      | int y =>
          rw [Arithmetic.checked, hop x y rfl rfl]
          rfl
      | _ => rfl
  | _ => cases b <;> rfl

/-- What arithmetic on 64 bits makes of a pair of cells. -/
def checkedPair (op : Arithmetic) (p : Option (Cell × Cell)) : Except ComputeFailure Cell :=
  (p.map fun p => op.checked Instant.fitsInt64 p.1 p.2).getD (.ok .null)

/-- Each pair makes the count that its row has, where it fits. A row without a pair has a
null on one side, and so no count. -/
theorem checkedPairs {op : Arithmetic} {k : Int → Int → Int} (hl : l.Counts .int64 rows f)
    (hr : r.Counts .int64 rows g) (hlength : l.length = rows ∨ r.length = rows)
    (hop : ∀ i < rows, ∀ x y, f i = some x → g i = some y → op.onInts x y = .ok (k x y)) :
    ∃ ps : List (Option (Cell × Cell)), BinaryOp.apply (.arithmetic op) l r
      = computed .int64 (ps.mapM (checkedPair op))
      ∧ ps.length = rows
      ∧ ∀ i < rows, ∃ p, ps[i]? = some p
        ∧ checkedPair op p = Cell.kept Instant.fitsInt64 (Option.map₂ k (f i) (g i)) := by
  obtain ⟨ps, hps, hpslength⟩ := exists_pairs hl.spans hr.spans hlength
  refine ⟨ps, ?_, hpslength, fun i hi => ?_⟩
  · show (l.coerce r >>= fun p => Column.arithmetic op p.1 p.2) = _
    rw [coerce_self (hl.type_eq.trans hr.type_eq.symm)]
    show (pairs l r >>= _) = _
    rw [hps, hl.type_eq]
    exact congrArg (computed .int64) (rowwise_eq_mapM _ ps)
  · rcases row_pairs hps (hpslength ▸ hi) with hp | ⟨hp, hnull⟩
    · refine ⟨_, hp, ?_⟩
      have hchecked := @checked_eq op Instant.fitsInt64 (l.row i) (r.row i) k
      rw [hl.count_eq i hi, hr.count_eq i hi] at hchecked
      exact hchecked (hop i hi)
    · refine ⟨_, hp, ?_⟩
      rw [Bool.or_eq_true, hl.isNull_iff rfl hi, hr.isNull_iff rfl hi] at hnull
      rcases hnull with hnull | hnull
      · rw [hnull, Option.map₂_none_left]
        rfl
      · rw [hnull, Option.map₂_none_right]
        rfl

/-- Arithmetic on 64 bits succeeds if every result fits, and overflows otherwise. -/
theorem arithmetic {op : Arithmetic} {k : Int → Int → Int} (hl : l.Counts .int64 rows f)
    (hr : r.Counts .int64 rows g) (hlength : l.length = rows ∨ r.length = rows)
    (hop : ∀ i < rows, ∀ x y, f i = some x → g i = some y → op.onInts x y = .ok (k x y)) :
    (∃ out, BinaryOp.apply (.arithmetic op) l r = .ok out ∧ out.length = rows
        ∧ out.Counts .int64 rows (fun i => Option.map₂ k (f i) (g i))
        ∧ ∀ i < rows, ∀ n, Option.map₂ k (f i) (g i) = some n → Instant.fitsInt64 n = true)
      ∨ BinaryOp.apply (.arithmetic op) l r = .error (.compute .arithmeticOverflow)
        ∧ ∃ i < rows, ∃ n, Option.map₂ k (f i) (g i) = some n
          ∧ Instant.fitsInt64 n = false := by
  obtain ⟨ps, happly, hpslength, hpairs⟩ := checkedPairs hl hr hlength hop
  cases hcells : ps.mapM (checkedPair op) with
  | ok cells =>
      left
      rw [hcells] at happly
      have hall := mapM_eq_ok.1 hcells
      have hlengthcells : cells.length = rows := hall.length_eq.symm.trans hpslength
      have hrow : ∀ i < rows, ∃ cell, cells[i]? = some cell
          ∧ Cell.kept Instant.fitsInt64 (Option.map₂ k (f i) (g i)) = .ok cell := by
        intro i hi
        obtain ⟨p, hp, hpi⟩ := hpairs i hi
        obtain ⟨hips, rfl⟩ := List.getElem?_eq_some_iff.1 hp
        have hicells : i < cells.length := hlengthcells ▸ hi
        exact ⟨_, List.getElem?_eq_getElem hicells, hpi ▸ hall.get hips hicells⟩
      refine ⟨_, happly, hlengthcells,
        ⟨rfl, ?_, .inl hlengthcells, fun i hi => ?_⟩, fun i hi => ?_⟩
      · exact typed_binary (.arithmetic op) l r _ happly
      · obtain ⟨cell, hcell, hkept⟩ := hrow i hi
        rw [row_eq (c := ⟨.int64, cells⟩) hlengthcells hi hcell, (Cell.kept_eq_ok.1 hkept).1]
        exact Cell.int?_ofOption _
      · obtain ⟨_, -, hkept⟩ := hrow i hi
        exact (Cell.kept_eq_ok.1 hkept).2
  | error failure =>
      right
      rw [hcells] at happly
      obtain ⟨p, hp, hfailure⟩ := exists_of_mapM_eq_error hcells
      obtain ⟨i, hi⟩ := List.mem_iff_getElem?.1 hp
      have hirows : i < rows := hpslength ▸ (List.getElem?_eq_some_iff.1 hi).1
      obtain ⟨p', hp', hkept⟩ := hpairs i hirows
      obtain rfl : p = p' := Option.some.inj (hi.symm.trans hp')
      obtain ⟨rfl, n, hn, hfits⟩ := Cell.kept_eq_error.1 (hkept.symm.trans hfailure)
      exact ⟨happly, i, hirows, n, hn, hfits⟩

end Counts

end Column

/-! ## Expressions -/

namespace Expr

variable {b : Batch} {e l r : Expr} {c : Column} {t : Physical}
    {f g : Nat → Option Int} {P Q : Prop}

/-- The expression has a row for each row of the batch. -/
def Tall (b : Batch) (e : Expr) : Prop := ∀ c, e.evaluate b = .ok c → c.length = b.rows

/-- Under the condition the expression evaluates to the counts, and otherwise it overflows.
-/
def Tallies (b : Batch) (e : Expr) (f : Nat → Option Int) (P : Prop) : Prop :=
  (P ∧ ∃ c, e.evaluate b = .ok c ∧ c.Counts .int64 b.rows f)
    ∨ (¬ P ∧ e.evaluate b = .error (.compute .arithmeticOverflow))

namespace Tallies

theorem congr (h : Tallies b e f P) (hfg : ∀ i < b.rows, f i = g i) (hPQ : P ↔ Q) :
    Tallies b e g Q := by
  rcases h with ⟨hP, c, hc, hcounts⟩ | ⟨hP, herror⟩
  · exact .inl ⟨hPQ.1 hP, c, hc, hcounts.congr hfg⟩
  · exact .inr ⟨fun hQ => hP (hPQ.2 hQ), herror⟩

/-! ### Constants and conversions -/

theorem evaluate_ofInt {n : Int} (hn : Instant.fitsInt64 n = true) :
    (ofInt n).evaluate b = .ok (.constant .int64 (.int n) b.rows) := by
  obtain ⟨hmin, hmax⟩ := Instant.fitsInt64_iff.1 hn
  show (Column.constant .int64 (.int (Int64.ofInt n).toInt) b.rows).cast .int64 = _
  rw [Int64.toInt_ofInt_of_le hmin hmax]
  rfl

theorem tall_ofInt {n : Int} (hn : Instant.fitsInt64 n = true) : Tall b (ofInt n) := by
  intro c hc
  cases (evaluate_ofInt hn).symm.trans hc
  exact List.length_replicate

theorem ofInt {n : Int} (hn : Instant.fitsInt64 n = true) :
    Tallies b (.ofInt n) (fun _ => some n) True :=
  .inl ⟨trivial, _, evaluate_ofInt hn, .constant n rfl b.rows⟩

/-- Counts stay what they are as whole numbers of 64 bits. -/
theorem castInt64 (hc : e.evaluate b = .ok c) (h : c.Counts t b.rows f)
    (ht : t.countable = true) :
    Tallies b (.cast e .int64) f True := by
  obtain ⟨d, hd, -, hcounts⟩ := h.toInt64 ht
  refine .inl ⟨trivial, d, ?_, hcounts⟩
  rw [evaluate, hc]
  exact hd

/-! ### Arithmetic -/

theorem tall_binary {op : BinaryOp} (h : Tall b l ∨ Tall b r)
    (hspans : ∀ c d, l.evaluate b = .ok c → r.evaluate b = .ok d →
      c.Spans b.rows ∧ d.Spans b.rows) :
    Tall b (.binary l op r) := by
  intro out hout
  rw [evaluate] at hout
  obtain ⟨c, hc, hout⟩ := bind_eq_ok.1 hout
  obtain ⟨d, hd, hout⟩ := bind_eq_ok.1 hout
  obtain ⟨hmem, hcovers⟩ := Column.covers_binary op c d out hout
  obtain ⟨hcspans, hdspans⟩ := hspans c d hc hd
  have hctall : c.length = b.rows ∨ d.length = b.rows := h.imp (· c hc) (· d hd)
  have hcheight := hcovers c.length List.mem_cons_self
  have hdheight := hcovers d.length (List.mem_cons_of_mem _ List.mem_cons_self)
  simp only [List.mem_cons, List.not_mem_nil, or_false] at hmem
  unfold Column.Spans at hcspans hdspans
  omega

theorem spans (h : Tallies b e f P) (hc : e.evaluate b = .ok c) : c.Spans b.rows := by
  rcases h with ⟨-, d, hd, hcounts⟩ | ⟨-, herror⟩
  · cases hd.symm.trans hc
    exact hcounts.spans
  · cases herror.symm.trans hc

theorem tall (hl : Tallies b l f P) (hr : Tallies b r g Q) (htall : Tall b l ∨ Tall b r)
    (op : BinaryOp) :
    Tall b (.binary l op r) :=
  tall_binary htall fun _ _ hc hd => ⟨hl.spans hc, hr.spans hd⟩

/-- Arithmetic needs that its operands can be computed and that each result fits. -/
theorem arithmetic {op : Column.Arithmetic} {k : Int → Int → Int} (hl : Tallies b l f P)
    (hr : Tallies b r g Q) (htall : Tall b l ∨ Tall b r)
    (hop : ∀ i < b.rows, ∀ x y, f i = some x → g i = some y → op.onInts x y = .ok (k x y)) :
    Tallies b (.binary l (.arithmetic op) r) (fun i => Option.map₂ k (f i) (g i))
      (P ∧ Q ∧ ∀ i < b.rows, ∀ n, Option.map₂ k (f i) (g i) = some n →
        Instant.fitsInt64 n = true) := by
  rcases hl with ⟨hP, c, hc, hl⟩ | ⟨hP, hl⟩
  · rcases hr with ⟨hQ, d, hd, hr⟩ | ⟨hQ, hr⟩
    · have hevaluate : (binary l (.arithmetic op) r).evaluate b
          = BinaryOp.apply (.arithmetic op) c d := by
        rw [evaluate, hc, hd]
        rfl
      rw [Tallies, hevaluate]
      rcases hl.arithmetic hr (htall.imp (· c hc) (· d hd)) hop
        with ⟨out, hout, -, hcounts, hfits⟩ | ⟨herror, i, hi, n, hn, hfits⟩
      · exact .inl ⟨⟨hP, hQ, hfits⟩, out, hout, hcounts⟩
      · refine .inr ⟨fun h => ?_, herror⟩
        rw [h.2.2 i hi n hn] at hfits
        cases hfits
    · refine .inr ⟨fun h => hQ h.2.1, ?_⟩
      rw [evaluate, hc, hr]
      rfl
  · refine .inr ⟨fun h => hP h.1, ?_⟩
    rw [evaluate, hl]
    rfl

end Tallies

end Expr

end TypedQuery
