import TypedQuery.Expr.Evaluate
import TypedQuery.Columnar.Apply
import TypedQuery.Columnar.Literal
import TypedQuery.Proofs.Columnar.Lists
import TypedQuery.Proofs.Columnar.RowByRow

/-!
# Cells of the type of their column

A column has one type, and every operation gives a column whose cells are of the type that
it says. A missing cell is of any type. How what holds of every cell goes through the
evaluation of an expression is said for all such properties at once (`Expr.Invariant`).
-/

namespace TypedQuery

namespace Cell

/-- Whether a column of the type may have the cell. -/
def fits : Physical → Cell → Bool
  | _, missing _ => true
  | .boolean, bool _ => true
  | .int32, int _ | .int64, int _ | .date, int _ | .timestamp _, int _ => true
  | .float64, float _ => true
  | .text, text _ => true
  | .binary, bytes _ => true
  | .list _, list _ => true
  | _, _ => false

@[simp] theorem fits_missing (t : Physical) (r : Residue) :
    fits t (missing r) = true := by cases t <;> rfl

@[simp] theorem fits_null (t : Physical) : fits t null = true := fits_missing t _

theorem fits_ofOption {α : Type} {t : Physical} {make : α → Cell}
    (h : ∀ a, fits t (make a) = true) (a : Option α) :
    fits t (ofOption make a) = true := by
  cases a with
  | none => exact fits_null t
  | some a => exact h a

end Cell

/-- Every cell of the column is of the column's type. -/
def Column.Typed (c : Column) : Prop := ∀ cell ∈ c.cells, cell.fits c.type = true

namespace Cast

/-! ## Conversion -/

section

variable {t : Physical} (ht : ∀ n, Cell.fits t (.int n) = true)

include ht

theorem fits_intIn (ok : Int → Bool) (n : Int) : Cell.fits t (intIn ok n) = true := by
  unfold intIn
  split
  · exact ht n
  · exact Cell.fits_null t

theorem fits_readInt (ok : Int → Bool) (s : String) : Cell.fits t (readInt ok s) = true := by
  unfold readInt
  split
  · exact fits_intIn ht _ _
  · exact Cell.fits_null t

theorem fits_truncated (ok : Int → Bool) (x : Option Int) :
    Cell.fits t ((x.map (intIn ok)).getD .null) = true := by
  cases x with
  | none => exact Cell.fits_null t
  | some n => exact fits_intIn ht _ _

theorem fits_rescale (source target : TimeUnit) (n : Int) :
    Cell.fits t (rescale source target n) = true := by
  unfold rescale
  split
  · exact ht _
  · split
    · exact ht _
    · exact fits_intIn ht _ _

theorem fits_readTimestamp (unit : TimeUnit) (s : String) :
    Cell.fits t (readTimestamp unit s) = true := by
  unfold readTimestamp
  split
  · exact Cell.fits_null t
  · split
    · exact ht _
    · exact fits_intIn ht _ _

end

/-- Where the types convert, so does every cell that is of the one type into one of the
other. -/
theorem filled_fits {source target : Physical} {c out : Cell} (hlist : target.isList = false)
    (hcasts : source.casts target = true) (hne : source ≠ target) (hc : c.fits source = true)
    (h : filled source target c = .ok out) : out.fits target = true := by
  cases target with
  | list => cases hlist
  | text =>
      cases c with
      | bytes bs => cases h; exact Cell.fits_ofOption (fun _ => rfl) _
      | _ =>
          simp only [filled] at h
          obtain ⟨s, -, rfl⟩ := map_eq_ok.1 h
          rfl
  | _ =>
      -- What is left of the pairs of a type and a cell are those that have a
      -- conversion of their own.
      cases c <;> cases source <;> simp only [Cell.fits, Bool.false_eq_true] at hc <;>
        simp [Physical.casts, Physical.castsPlain, Physical.isNumeric, Physical.isTemporal]
          at hcasts hne <;>
        simp only [filled, Except.ok.injEq] at h <;> (try subst h) <;>
        first
          | rfl
          | exact Cell.fits_ofOption (fun _ => rfl) _
          | exact fits_intIn (fun _ => rfl) _ _
          | exact fits_readInt (fun _ => rfl) _ _
          | exact fits_truncated (fun _ => rfl) _ _
          | exact fits_rescale (fun _ => rfl) _ _ _
          | exact fits_readTimestamp (fun _ => rfl) _ _
          | (split at h <;> cases h; rfl)

theorem cell_missing {source target : Physical}
    (hlist : target.isList = false) (r : Residue) :
    cell source target (.missing r) = .ok (.missing (residue source target r)) := by
  cases target <;> (try cases hlist) <;> cases source <;> rfl

theorem cell_filled {source target : Physical} (hlist : target.isList = false) {c : Cell}
    (hc : c.isNull = false) :
    cell source target c = if source = target then .ok c else filled source target c := by
  cases c <;> (try cases hc) <;> cases target <;> (try cases hlist) <;> cases source <;> rfl

theorem cell_fits {source target : Physical} {c out : Cell}
    (hcasts : source.casts target = true) (hne : source ≠ target)
    (hc : c.fits source = true) (h : cell source target c = .ok out) :
    out.fits target = true := by
  cases hlist : target.isList with
  | false =>
      cases hnull : c.isNull with
      | true =>
          cases c <;> cases hnull
          rw [cell_missing hlist] at h
          cases h
          exact Cell.fits_missing _ _
      | false =>
          rw [cell_filled hlist hnull, if_neg hne] at h
          exact filled_fits hlist hcasts hne hc h
  | true =>
      cases target <;> cases hlist
      cases source with
      | null => cases h; rfl
      | list s =>
          cases c with
          | list items =>
              obtain ⟨items, -, h⟩ := bind_eq_ok.1 h
              cases h
              rfl
          | missing r => cases h; rfl
          | _ => cases hc
      | _ =>
          obtain ⟨item, -, h⟩ := bind_eq_ok.1 h
          cases h
          rfl

end Cast

/-! ## What holds of every cell -/

/-- What is asked of a cell, given the type of its column, holds of every cell of the
column. -/
def Column.Holds (P : Physical → Cell → Prop) (c : Column) : Prop :=
  ∀ cell ∈ c.cells, P c.type cell

/-- It holds of missing cells, whatever the type, and conversion keeps it. -/
structure Cell.Kept (P : Physical → Cell → Prop) : Prop where
  missing : ∀ t r, P t (.missing r)
  cast : ∀ {source target : Physical} {c out : Cell}, source.casts target = true →
    source ≠ target → P source c →
    Cast.cell source target c = .ok out → P target out

namespace Column

theorem mem_choose {cell : Cell} : ∀ {mask : List Bool}
    {as bs : List Cell}, cell ∈ choose mask as bs → cell ∈ as ∨ cell ∈ bs
  | m :: mask, a :: as, b :: bs, h => by
      rcases List.mem_cons.1 h with rfl | h
      · cases m
        · exact .inr List.mem_cons_self
        · exact .inl List.mem_cons_self
      · exact (mem_choose h).imp (List.mem_cons_of_mem _) (List.mem_cons_of_mem _)
  | [], _, _, h | _ :: _, [], _, h | _ :: _, _ :: _, [], h => by cases h

namespace Holds

variable {P : Physical → Cell → Prop} {c l r : Column} {cs : List Column}

theorem constant {t : Physical} {cell : Cell} (h : P t cell) (rows : Nat) :
    (Column.constant t cell rows).Holds P := by
  intro other hother
  rw [List.eq_of_mem_replicate hother]
  exact h

theorem keep (h : c.Holds P) (mask : List Bool) : (c.keep mask).Holds P := by
  intro cell hcell
  obtain ⟨p, hp, rfl⟩ := List.mem_map.1 hcell
  exact h _ (List.of_mem_zip (List.mem_filter.1 hp).1).1

theorem broadcast (h : c.Holds P) (rows : Nat) :
    Yields (fun out => out.type = c.type ∧ out.Holds P) (c.broadcast rows) := by
  unfold Column.broadcast
  split
  · exact .ok ⟨rfl, h⟩
  · split
    · next cell hcells =>
        exact .ok ⟨rfl, constant (h cell (hcells ▸ List.mem_singleton_self cell)) rows⟩
    · exact .error _

theorem broadcastAll (rows : Nat) (h : ∀ c ∈ cs, c.Holds P) :
    Yields (∀ c ∈ ·, c.Holds P) (broadcastAll rows cs) := by
  induction cs with
  | nil => exact .ok h
  | cons c rest ih =>
      obtain ⟨hc, hrest⟩ := List.forall_mem_cons.1 h
      exact .bind (hc.broadcast rows) fun _ hhere => .bind (ih hrest) fun _ hrest =>
        .ok (List.forall_mem_cons.2 ⟨hhere.2, hrest⟩)

section

variable (hP : Cell.Kept P)

include hP

theorem vacancy (c : Column) : P c.type c.vacancy := by
  unfold Column.vacancy
  split
  · exact hP.missing _ _
  · split
    · exact hP.missing _ _
    · split <;> exact hP.missing _ _

theorem gather (h : c.Holds P) (rows : List (Option Nat)) : (c.gather rows).Holds P := by
  intro cell hcell
  obtain ⟨row, -, rfl⟩ := List.mem_map.1 hcell
  cases hrow : row.bind fun i => c.cells[i]? with
  | none => exact vacancy hP c
  | some cell =>
      obtain ⟨i, -, hi⟩ := Option.bind_eq_some_iff.1 hrow
      exact h cell (List.mem_of_getElem? hi)

theorem cast (h : c.Holds P) (target : Physical) :
    Yields (fun out => out.type = target ∧ out.Holds P) (c.cast target) := by
  intro out hout
  by_cases hne : c.type = target
  · rw [Column.cast, if_pos hne] at hout
    cases hout
    exact ⟨hne, h⟩
  · obtain ⟨hcasts, rfl, hcells⟩ := cast_eq_ok hout hne
    refine ⟨rfl, fun out hout => ?_⟩
    obtain ⟨cell, hcell, hconvert⟩ := exists_of_forall₂_right hcells hout
    exact hP.cast hcasts hne (h cell hcell) hconvert

/-- Both columns come out in one type. -/
theorem coerce (hl : l.Holds P) (hr : r.Holds P) :
    Yields (fun p => p.1.Holds P ∧ p.2.Holds P ∧ p.2.type = p.1.type) (l.coerce r) :=
  .bind_any fun t _ => .bind (hl.cast hP t) fun _ hl => .bind (hr.cast hP t) fun _ hr =>
    .ok ⟨hl.2, hr.2, hr.1.trans hl.1.symm⟩

theorem select (hl : l.Holds P) (hr : r.Holds P) (mask : List Bool) :
    Yields (Holds P) (Column.select mask l r) := by
  refine .bind_any fun _ _ => .bind (hl.coerce hP hr) fun p hp => ?_
  refine .bind (hp.1.broadcast _) fun a ha => .bind (hp.2.1.broadcast _) fun b hb =>
    .ok fun cell hcell => ?_
  rcases mem_choose hcell with hcell | hcell
  · exact ha.2 cell hcell
  · have htype : b.type = a.type := hb.1.trans (hp.2.2.trans ha.1.symm)
    exact htype ▸ hb.2 cell hcell

theorem orElse (hl : l.Holds P) (hr : r.Holds P) : Yields (Holds P) (l.orElse r) :=
  .bind (hr.cast hP _) fun _ hr => hl.select hP hr.2 _

theorem fillNan (hl : l.Holds P) (hr : r.Holds P) : Yields (Holds P) (l.fillNan r) :=
  .bind (hr.cast hP _) fun _ hr => hl.select hP hr.2 _

theorem better (op : Comparison) (hl : l.Holds P) (hr : r.Holds P) :
    Yields (Holds P) (better op l r) := by
  refine .bind (hl.coerce hP hr) fun p hp => .bind_any fun _ _ => ?_
  split
  · exact hp.1.select hP hp.2.1 _
  · exact .error _

theorem coalesce (h : ∀ c ∈ cs, c.Holds P) : Yields (Holds P) (coalesce cs) := by
  induction cs with
  | nil => exact .error _
  | cons c rest ih =>
      obtain ⟨hc, hrest⟩ := List.forall_mem_cons.1 h
      cases rest with
      | nil => exact .ok hc
      | cons => exact .bind (ih hrest) fun _ h => hc.orElse hP h

theorem extremeFrom (op : Comparison) (h : ∀ c ∈ cs, c.Holds P) {current : Column}
    (hcurrent : current.Holds P) :
    Yields (Holds P) (extremeFrom op current cs) := by
  induction cs generalizing current with
  | nil => exact .ok hcurrent
  | cons c rest ih =>
      obtain ⟨hc, hrest⟩ := List.forall_mem_cons.1 h
      exact .bind (hcurrent.better hP op hc) fun _ h => ih hrest h

theorem horizontal (op : Comparison) (h : ∀ c ∈ cs, c.Holds P) :
    Yields (Holds P) (horizontal op cs) := by
  cases cs with
  | nil => exact .error _
  | cons c rest =>
      obtain ⟨hc, hrest⟩ := List.forall_mem_cons.1 h
      exact extremeFrom hP op hrest hc

end

end Holds

end Column

/-- Every operation that expressions are made of gives columns of which it holds. -/
structure Expr.Invariant (P : Physical → Cell → Prop) : Prop extends Cell.Kept P where
  bool : ∀ b, P .boolean (.bool b)
  int : ∀ n, P .int64 (.int n)
  literal : ∀ v t rows, Yields (Column.Holds P) (Literal.column v t rows)
  unary : ∀ (op : UnaryOp) c, Yields (Column.Holds P) (op.apply c)
  binary : ∀ (op : BinaryOp) l r, Yields (Column.Holds P) (op.apply l r)
  function : ∀ (f : Function) {cs}, (∀ c ∈ cs, Column.Holds P c) →
    Yields (Column.Holds P) (f.apply cs)
  reduction : ∀ (f : Reduction) {c}, Column.Holds P c → Yields (Column.Holds P) (f.apply c)

namespace Expr

variable {P : Physical → Cell → Prop} {b : Batch}

theorem holds_evaluateIn (hP : Invariant P) :
    ∀ (options : List Expr) {c : Column} {found : Option Column}, (∀ c ∈ found, c.Holds P) →
      Yields (Column.Holds P) (evaluateIn b c found options)
  | [], c, found, h => by
      cases found with
      | none => exact .ok (.constant (hP.bool false) _)
      | some found => exact .ok (h found rfl)
  | e :: rest, c, found, h => by
      refine .bind_any fun _ _ => .bind (hP.binary _ _ _) fun matched hmatched => ?_
      cases found with
      | none => exact holds_evaluateIn hP rest fun _ h => by cases h; exact hmatched
      | some found =>
          refine .bind (hP.binary _ _ _) fun _ hboth =>
            holds_evaluateIn hP rest fun _ h => ?_
          cases h
          exact hboth

theorem holds_findColumn (hb : ∀ c ∈ b.columns, c.2.Holds P) (name : String) :
    Yields (Column.Holds P) (findColumn b name) := by
  unfold findColumn
  cases hc : b.column? name with
  | none => exact .error _
  | some c =>
      obtain ⟨named, hnamed, rfl⟩ := Option.map_eq_some_iff.1 hc
      exact .ok (hb named (List.mem_of_find?_eq_some hnamed))

mutual

theorem holds_evaluate (hP : Invariant P) (hb : ∀ c ∈ b.columns, c.2.Holds P) :
    ∀ e : Expr, Yields (Column.Holds P) (e.evaluate b)
  | column name => holds_findColumn hb name
  | literal v type => hP.literal v type b.rows
  | named e _ => holds_evaluate hP hb e
  | cast e type => .bind (holds_evaluate hP hb e) fun _ h =>
    (h.cast hP.toKept _).mono fun _ h => h.2
  | unary op e => .bind_any fun _ _ => hP.unary op _
  | binary left op right => .bind_any fun _ _ => .bind_any fun _ _ => hP.binary op _ _
  | choose predicate thenExpr otherwise =>
    .bind_any fun _ _ => .bind_any fun _ _ =>
      .bind (holds_evaluate hP hb thenExpr) fun _ hl =>
      .bind (holds_evaluate hP hb otherwise) fun _ hr => hl.select hP.toKept hr _
  | fillNull e fill =>
    .bind (holds_evaluate hP hb e) fun _ hl => .bind (holds_evaluate hP hb fill) fun _ hr =>
      hl.orElse hP.toKept hr
  | fillNan e fill => by
      refine .bind (holds_evaluate hP hb e) fun c hc => ?_
      split
      · exact .bind (holds_evaluate hP hb fill) fun _ hr => hc.fillNan hP.toKept hr
      · exact .ok hc
  | isIn e options => .bind_any fun _ _ => holds_evaluateIn hP options
    (fun _ h => by cases h)
  | between e low high =>
    .bind_any fun _ _ => .bind_any fun _ _ => .bind_any fun _ _ => .bind_any fun _ _ =>
      .bind_any fun _ _ =>
      hP.binary _ _ _
  | coalesce items => .bind (holds_evaluateList hP hb items) fun _ h => .coalesce hP.toKept h
  | least items => .bind (holds_evaluateList hP hb items) fun _ h =>
    .horizontal hP.toKept _ h
  | greatest items => .bind (holds_evaluateList hP hb items) fun _ h =>
    .horizontal hP.toKept _ h
  | call f items => .bind (holds_evaluateList hP hb items) fun _ h =>
      .bind (Column.Holds.broadcastAll _ h) fun _ h => hP.function f h
  | reduce f e none => .bind (holds_evaluate hP hb e) fun _ h => hP.reduction f h
  | reduce f e (some filter) => by
      refine .bind (holds_evaluate hP hb e) fun c hc => .bind_any fun _ _ =>
        .bind_any fun _ _ =>
        .bind (P := Column.Holds P) ?_ fun _ h => hP.reduction f h
      unfold Column.filter
      split
      · exact .error _
      · exact .ok (hc.keep _)
  | countRows none => .ok (.constant (hP.int _) 1)
  | countRows (some filter) => .bind_any fun _ _ => .bind_any fun _ _ =>
    .ok (.constant (hP.int _) 1)

theorem holds_evaluateList (hP : Invariant P) (hb : ∀ c ∈ b.columns, c.2.Holds P) :
    ∀ items : List Expr, Yields (∀ c ∈ ·, c.Holds P) (evaluateList b items)
  | [] => .ok fun _ h => by cases h
  | e :: rest => .bind (holds_evaluate hP hb e) fun _ hhere =>
    .bind (holds_evaluateList hP hb rest) fun _ hrest =>
      .ok (List.forall_mem_cons.2 ⟨hhere, hrest⟩)

end

end Expr

/-! ## Cells of the type of their column -/

theorem Cell.kept_fits : Cell.Kept fun t cell => cell.fits t = true where
  missing := fits_missing
  cast := Cast.cell_fits

namespace Column

variable {c l r : Column} {cs : List Column}

theorem typed_of_fits {t : Physical} {cells : List Cell}
    (h : ∀ cell ∈ cells, cell.fits t = true) :
    Typed ⟨t, cells⟩ := h

theorem typed_map {α : Type} {t : Physical} {make : α → Cell}
    (h : ∀ a, (make a).fits t = true) (as : List α) :
    Typed ⟨t, as.map make⟩ := by
  intro cell hcell
  obtain ⟨a, -, rfl⟩ := List.mem_map.1 hcell
  exact h a

theorem typed_zipWith {α β : Type} {t : Physical} {make : α → β → Cell}
    (h : ∀ a b, (make a b).fits t = true) (as : List α) (bs : List β) :
    Typed ⟨t, List.zipWith make as bs⟩ := by
  intro cell hcell
  rw [← List.map_uncurry_zip_eq_zipWith] at hcell
  obtain ⟨p, -, rfl⟩ := List.mem_map.1 hcell
  exact h _ _

theorem typed_constant {t : Physical} {cell : Cell} (h : cell.fits t = true) (rows : Nat) :
    Typed (constant t cell rows) := by
  intro cell hcell
  rw [List.eq_of_mem_replicate hcell]
  exact h

theorem typed_bools (bs : List (Option Bool)) : Typed (bools bs) :=
  typed_map (Cell.fits_ofOption fun _ => rfl) bs

theorem typed_ints (ns : List (Option Int)) : Typed (ints ns) :=
  typed_map (Cell.fits_ofOption fun _ => rfl) ns

theorem typed_floats (xs : List (Option Double)) : Typed (floats xs) :=
  typed_map (Cell.fits_ofOption fun _ => rfl) xs

theorem typed_texts (ss : List (Option String)) : Typed (texts ss) :=
  typed_map (Cell.fits_ofOption fun _ => rfl) ss

theorem Typed.gather (h : c.Typed) (rows : List (Option Nat)) : (c.gather rows).Typed :=
  Holds.gather Cell.kept_fits h rows

theorem Typed.keep (h : c.Typed) (mask : List Bool) : (c.keep mask).Typed :=
  Holds.keep (P := fun t cell => cell.fits t = true) h mask

/-! ## Operators -/

theorem Typed.cast (h : c.Typed) (target : Physical) :
    Yields (fun out => out.type = target ∧ out.Typed) (c.cast target) :=
  Holds.cast Cell.kept_fits h target

theorem Typed.broadcast (h : c.Typed) (rows : Nat) :
    Yields (fun out => out.type = c.type ∧ out.Typed) (c.broadcast rows) :=
  Holds.broadcast (P := fun t cell => cell.fits t = true) h rows

theorem typed_computed {t : Physical} {x : Except ComputeFailure (List Cell)}
    (h : Yields (∀ cell ∈ ·, cell.fits t = true) x) : Yields Typed (computed t x) := by
  cases x with
  | error => exact .error _
  | ok cells => exact .ok (h cells rfl)

theorem typed_checked {t : Physical} (ht : ∀ n, Cell.fits t (.int n) = true)
    (fits : Int → Bool) (op : Arithmetic) (ps : List (Option (Cell × Cell))) :
    Yields Typed (computed t (rowwise (op.checked fits) ps)) := by
  rw [rowwise_eq_mapM]
  refine typed_computed (.mapM fun p _ => ?_)
  cases p with
  | none => exact .ok (Cell.fits_null t)
  | some p =>
      obtain ⟨a, b⟩ := p
      show Yields _ (op.checked fits a b)
      unfold Arithmetic.checked
      split
      · refine .bind_any fun n _ => ?_
        split
        · exact .ok (ht n)
        · exact .error _
      · exact .ok (Cell.fits_null t)

theorem fits_unchecked (op : Arithmetic) (a b : Cell) :
    (op.unchecked a b).fits .float64 = true := by
  unfold Arithmetic.unchecked
  split <;> rfl

theorem typed_arithmetic (op : Arithmetic) (l r : Column) :
    Yields Typed (arithmetic op l r) := by
  refine .bind_any fun rows _ => ?_
  split
  · exact typed_checked (fun _ => rfl) _ _ _
  · exact typed_checked (fun _ => rfl) _ _ _
  · refine .ok (typed_map (fun row => ?_) rows)
    cases row with
    | none => rfl
    | some p => exact fits_unchecked op p.1 p.2
  · exact .error _

theorem typed_power (l r : Column) : Yields Typed (power l r) :=
  .bind_any fun _ _ => .bind_any fun _ _ => .bind_any fun _ _ => .bind_any fun _ _ =>
    .ok (typed_floats _)

theorem fits_compareCells (op : Comparison) (t : Physical) (a b : Cell) :
    (compareCells op t a b).fits .boolean = true := by
  unfold compareCells
  split
  · split <;> rfl
  · rfl

theorem typed_compare (op : Comparison) (l r : Column) : Yields Typed (compare op l r) := by
  refine .bind_any fun rows _ => ?_
  split
  · exact .error _
  · refine .ok (typed_map (fun row => ?_) rows)
    cases row with
    | none => rfl
    | some p => exact fits_compareCells op l.type p.1 p.2

theorem fits_logicCells (op : Logic) (a b : Cell) :
    (logicCells op a b).fits .boolean = true := by
  unfold logicCells
  split <;> rfl

theorem typed_logic (op : Logic) (l r : Column) : Yields Typed (logic op l r) :=
  .bind_any fun _ _ => .bind_any fun _ _ => .bind_any fun _ _ => .bind_any fun _ _ =>
    .ok (typed_zipWith (fits_logicCells op) _ _)

theorem fits_bitwiseCells (op : Bitwise) (a b : Cell) :
    (bitwiseCells op a b).fits .int64 = true := by
  unfold bitwiseCells
  split <;> rfl

theorem typed_bitwise (op : Bitwise) (l r : Column) : Yields Typed (bitwise op l r) :=
  .bind_any fun _ _ => .bind_any fun _ _ => .bind_any fun _ _ => .bind_any fun _ _ =>
    .ok (typed_zipWith (fits_bitwiseCells op) _ _)

theorem typed_binary (op : BinaryOp) (l r : Column) : Yields Typed (op.apply l r) := by
  refine .bind_any fun p _ => ?_
  cases op with
  | arithmetic op => exact typed_arithmetic op _ _
  | power => exact typed_power _ _
  | compare op => exact typed_compare op _ _
  | logic op => exact typed_logic op _ _
  | bitwise op => exact typed_bitwise op _ _

theorem typed_negateInts {t : Physical} (ht : ∀ n, Cell.fits t (.int n) = true)
    (fits : Int → Bool) (cells : List Cell) :
    Yields Typed (computed t (negateInts fits cells)) := by
  rw [negateInts_eq_mapM]
  refine typed_computed (.mapM fun cell _ => ?_)
  cases cell with
  | int n =>
      dsimp only
      split
      · exact .ok (ht _)
      · exact .error _
  | _ => exact .ok (Cell.fits_null t)

theorem typed_negate (c : Column) : Yields Typed c.negate := by
  unfold negate
  split
  · exact typed_negateInts (fun _ => rfl) _ _
  · exact typed_negateInts (fun _ => rfl) _ _
  · exact .ok (typed_map (fun cell => by cases cell <;> rfl) _)
  · exact .error _

theorem typed_mapDoubles (f : Double → Double) (c : Column) :
    Yields Typed (c.mapDoubles f) :=
  .bind_any fun _ _ => .ok (typed_floats _)

theorem typed_floatTest (f : Double → Bool) (c : Column) : Yields Typed (c.floatTest f) :=
  .bind_any fun _ _ => .ok (typed_bools _)

theorem typed_abs (c : Column) : Yields Typed c.abs := by
  unfold abs
  split
  · refine (Typed.cast (typed_map (fun cell => ?_) c.cells) c.type).mono fun _ h => h.2
    cases cell <;> rfl
  · exact typed_mapDoubles _ _

theorem typed_unary (op : UnaryOp) (c : Column) : Yields Typed (op.apply c) := by
  cases op with
  | negate => exact typed_negate c
  | not => exact .bind_any fun _ _ => .ok (typed_map (fun cell => by cases cell <;> rfl) _)
  | complement =>
      exact .bind_any fun _ _ => .ok (typed_map (fun cell => by cases cell <;> rfl) _)
  | isNull | isNotNull => exact .ok (typed_bools _)
  | isNan | isInfinite => exact typed_floatTest _ c
  | abs => exact typed_abs c
  | sign => exact .bind (typed_mapDoubles _ c) fun _ h => (h.cast _).mono fun _ h => h.2
  | _ => exact typed_mapDoubles _ c

/-! ## Choices -/

theorem Typed.select (hl : l.Typed) (hr : r.Typed) (mask : List Bool) :
    Yields Typed (Column.select mask l r) :=
  Holds.select Cell.kept_fits hl hr mask

theorem Typed.better (op : Comparison) (hl : l.Typed) (hr : r.Typed) :
    Yields Typed (better op l r) :=
  Holds.better Cell.kept_fits op hl hr

theorem typed_coalesce (h : ∀ c ∈ cs, c.Typed) : Yields Typed (coalesce cs) :=
  Holds.coalesce Cell.kept_fits h

theorem typed_broadcastAll (rows : Nat) (h : ∀ c ∈ cs, c.Typed) :
    Yields (∀ c ∈ ·, c.Typed) (broadcastAll rows cs) :=
  Holds.broadcastAll (P := fun t cell => cell.fits t = true) rows h

/-! ## Functions -/

theorem typed_mapTexts {t : Physical} {f : List Char → Option Cell}
    (hf : ∀ s cell, f s = some cell → cell.fits t = true)
    (c : Column) : Yields Typed (c.mapTexts t f) := by
  refine .bind_any fun texts _ => .ok (typed_map (fun s => ?_) texts)
  cases hs : s.bind fun s => f s.toList with
  | none => exact Cell.fits_null t
  | some cell =>
      obtain ⟨s, -, hs⟩ := Option.bind_eq_some_iff.1 hs
      exact hf _ cell hs

theorem typed_editTexts (f : List Char → List Char) (c : Column) :
    Yields Typed (c.editTexts f) :=
  typed_mapTexts (fun _ _ h => by cases h; rfl) c

theorem typed_testTexts (f : List Char → Bool) (c : Column) : Yields Typed (c.testTexts f) :=
  typed_mapTexts (fun _ _ h => by cases h; rfl) c

theorem typed_countTexts (f : List Char → Int) (c : Column) :
    Yields Typed (c.countTexts f) :=
  typed_mapTexts (fun _ _ h => by cases h; rfl) c

theorem typed_findInSet (values : List String) (c : Column) :
    Yields Typed (c.findInSet values) := typed_countTexts _ c

theorem typed_textLength (c : Column) : Yields Typed c.textLength := by
  refine typed_mapTexts (fun s cell h => ?_) c
  split at h <;> cases h
  rfl

theorem typed_splitTexts (separator : String) (c : Column) :
    Yields Typed (c.splitTexts separator) :=
  typed_mapTexts (fun _ _ h => by cases h; rfl) c

theorem typed_regexExtract (pattern : String) (group : Nat) (c : Column) :
    Yields Typed (c.regexExtract pattern group) := by
  refine .bind_any fun r _ => typed_mapTexts (fun s cell h => ?_) c
  obtain ⟨found, -, rfl⟩ := Option.map_eq_some_iff.1 h
  rfl

theorem typed_ofInstants (t : Physical) (ts : List (Option Instant)) :
    Typed (ofInstants t ts) := by
  refine typed_map (fun i => ?_) ts
  cases i with
  | none => exact Cell.fits_null t
  | some i => cases t <;> first | rfl | exact Cell.fits_ofOption (fun _ => rfl) _

theorem fits_fieldCell (field : TemporalField) (t : Instant) :
    (fieldCell field t).fits .int32 = true := by
  unfold fieldCell
  split <;> rfl

theorem typed_temporalField (field : TemporalField) (c : Column) :
    Yields Typed (c.temporalField field) := by
  unfold temporalField
  split
  · refine .ok (typed_map (fun cell => ?_) c.cells)
    split
    · split
      · rfl
      · exact fits_fieldCell _ _
    · rfl
  · refine .ok (typed_map (fun cell => ?_) c.cells)
    split
    · exact fits_fieldCell _ _
    · rfl
  · exact .error _

theorem typed_strftime (format : String) (c : Column) :
    Yields Typed (c.strftime format) := by
  unfold strftime
  split
  · exact .error _
  · exact .bind_any fun _ _ => .ok (typed_texts _)

theorem typed_ofParts (t : Physical) (cs : List Column) : Yields Typed (ofParts t cs) :=
  .bind_any fun _ _ => .ok (typed_ofInstants _ _)

theorem typed_listConcat (l r : Column) : Yields Typed (listConcat l r) := by
  rw [listConcat_eq]
  refine .bind_any fun _ _ => .bind_any fun _ hlist =>
    .ok (typed_zipWith (fun a b => ?_) _ _)
  unfold requireList at hlist
  split at hlist
  · next hl =>
      unfold concatCells
      split
      · cases ht : l.type <;> rw [ht] at hl <;> first | rfl | cases hl
      · exact Cell.fits_null _
  · cases hlist

theorem typed_listFromColumns (cs : List Column) : Yields Typed (listFromColumns cs) := by
  cases cs with
  | nil => exact .error _
  | cons first rest =>
    rw [listFromColumns_eq]
    split
    · exact .ok (typed_map (fun _ => rfl) _)
    · exact .error _

end Column

open Column

theorem Function.typed_applyOne {c : Column} (h : c.Typed) (f : Function) :
    Yields Typed (applyOne c f) := by
  cases f with
  | length => exact typed_textLength c
  | split => exact typed_splitTexts _ c
  | find => exact typed_countTexts _ c
  | findInSet => exact typed_findInSet _ c
  | contains | startsWith | endsWith => exact typed_testTexts _ c
  | regexMatch pattern => exact .bind_any fun _ _ => typed_testTexts _ c
  | regexExtract pattern group => exact typed_regexExtract _ _ c
  | regexReplace pattern replacement => exact .bind_any fun _ _ => typed_editTexts _ c
  | repeated times => exact .bind_any fun _ _ => .bind_any fun _ _ => .ok (typed_texts _)
  | temporal field => exact typed_temporalField _ c
  | epochSeconds => exact .bind (h.cast _) fun _ h => (h.2.cast _).mono fun _ h => h.2
  | strftime format => exact typed_strftime _ c
  | strptime format => exact .bind_any fun _ _ => .ok (typed_ofInstants _ _)
  | truncate unit =>
      exact .bind_any fun _ _ => .bind_any fun _ _ => .ok (typed_ofInstants _ _)
  | listLength => exact .bind_any fun _ _ => .ok (typed_ints _)
  | concat | dateFromParts | timestampFromParts | atan2 | listConcat | listFromColumns =>
      exact .error _
  | _ => exact typed_editTexts _ c

theorem Function.typed_apply {cs : List Column} (h : ∀ c ∈ cs, c.Typed) (f : Function) :
    Yields Typed (f.apply cs) := by
  cases f with
  | concat separator => exact .bind_any fun _ _ => .ok (typed_texts _)
  | dateFromParts =>
      simp only [apply, Column.dateFromParts]
      split
      · exact typed_ofParts _ _
      · exact .error _
  | timestampFromParts =>
      simp only [apply, Column.timestampFromParts]
      split
      · exact typed_ofParts _ _
      · exact .error _
  | atan2 =>
      simp only [apply]
      split
      · refine .bind_any fun _ _ => .bind_any fun _ _ =>
          .ok (typed_zipWith (fun a b => ?_) _ _)
        unfold atan2Cells
        split <;> rfl
      · exact .error _
  | listConcat =>
      simp only [apply]
      split
      · exact typed_listConcat _ _
      · exact .error _
  | listFromColumns => exact typed_listFromColumns cs
  | _ =>
      simp only [apply]
      split
      · exact typed_applyOne (h _ List.mem_cons_self) _
      · exact .error _

/-! ## Reductions -/

theorem Reduction.mem_of_leastCell {before : Cell → Cell → Bool}
    {cells : List Cell} {cell : Cell} (h : leastCell before cells = some cell) :
    cell ∈ cells := by
  induction cells generalizing cell with
  | nil => cases h
  | cons c rest ih =>
      rw [leastCell] at h
      split at h
      · next d hd =>
          cases h
          split
          · exact List.mem_cons_of_mem _ (ih hd)
          · exact List.mem_cons_self
      · cases h
        exact List.mem_cons_self

theorem Reduction.typed_single {t : Physical} {cell : Cell} (h : cell.fits t = true) :
    Typed (single t cell) :=
  typed_of_fits fun cell hcell => by rw [List.mem_singleton.1 hcell]; exact h

theorem Reduction.typed_extreme {c : Column} (h : c.Typed) (greatest : Bool) :
    Yields Typed (extreme greatest c) := by
  unfold extreme
  split
  · exact .ok (typed_single (Cell.fits_null _))
  · split
    · exact .error _
    · refine .ok (typed_single ?_)
      cases hleast : leastCell _ (c.cells.filter (!·.isNull)) with
      | none =>
          rw [Option.getD_none]
          cases hcells : c.cells with
          | nil => exact Cell.fits_null _
          | cons first rest => exact h first (hcells ▸ List.mem_cons_self)
      | some cell => exact h cell (List.mem_filter.1 (mem_of_leastCell hleast)).1

theorem Reduction.typed_apply {c : Column} (h : c.Typed) (f : Reduction) :
    Yields Typed (f.apply c) := by
  have hfloat : ∀ x, Typed (oneFloat x) :=
    fun x => typed_single (Cell.fits_ofOption (fun _ => rfl) x)
  cases f with
  | count | countDistinct => exact .ok (typed_single rfl)
  | sum =>
      simp only [apply]
      split
      · exact .bind_any fun _ _ => .ok (hfloat _)
      · refine .bind_any fun ns _ => .ok (typed_single ?_)
        unfold sumInts
        split <;> rfl
  | mean | median | std | variance => exact .bind_any fun _ _ => .ok (hfloat _)
  | min | max => exact typed_extreme h _
  | collect => exact .ok (typed_single rfl)

/-! ## Expressions -/

theorem Literal.typed_column (v : Value) (t : DataType) (rows : Nat) :
    Yields Typed (column v t rows) := by
  unfold column
  dsimp only
  split
  · exact .ok (typed_constant (Cell.fits_null _) rows)
  · have hstored : Yields (fun stored => stored.2.fits stored.1 = true) (stored v) := by
      cases v <;> first | exact .ok rfl | exact .error _
    refine .bind hstored fun p hp => ?_
    have hconstant := typed_constant hp rows
    split
    · exact .ok hconstant
    · exact (hconstant.cast _).mono fun _ h => h.2

/-- Every column of the batch holds cells of its type. -/
def Batch.Typed (b : Batch) : Prop := ∀ c ∈ b.columns, c.2.Typed

namespace Expr

variable {b : Batch}

theorem invariant_fits : Invariant fun t cell => cell.fits t = true where
  toKept := Cell.kept_fits
  bool := fun _ => rfl
  int := fun _ => rfl
  literal := Literal.typed_column
  unary := typed_unary
  binary := typed_binary
  function := fun f _ h => f.typed_apply h
  reduction := fun f _ h => f.typed_apply h

theorem typed_evaluate (hb : b.Typed) (e : Expr) : Yields Typed (e.evaluate b) :=
  holds_evaluate invariant_fits hb e

theorem typed_evaluateList (hb : b.Typed) (items : List Expr) :
    Yields (∀ c ∈ ·, c.Typed) (evaluateList b items) :=
  holds_evaluateList invariant_fits hb items

end Expr

end TypedQuery
