import TypedQuery.Columnar.Literal
import TypedQuery.Node.Validator
import TypedQuery.Proofs.Binary64.Whole
import TypedQuery.Proofs.Columnar.RowByRow

/-!
# What values become in columns

A value goes into a column in two steps: it is stored as what it is, and then converted to
the type of the column. Whether it fits is decided by the types alone, before either. So
the conversion is where a value can be lost: a whole number may be out of the range of a
narrower column, or between two doubles, and a date is stored as a count of days, which a
column of timestamps takes for a count of ticks. `Value.Kept` rules these out, and then the
cell denotes the value (`Value.denotes_cellIn`).

Rows of values that fit become a batch column by column; nothing on the way fails, except
that a batch needs a column.
-/

namespace TypedQuery

/-- The cell says in a column of the type what the value says: the number, the text, the
midnight that a day begins with. -/
inductive Cell.Denotes : Cell → DataType → Value → Prop where
  | null (t : DataType) : Denotes .null t .null
  | bool (b : Bool) : Denotes (.bool b) .boolean (.bool b)
  | int32 {n : Int64} (h : Instant.fitsInt32 n.toInt = true) :
    Denotes (.int n.toInt) .int32 (.int64 n)
  | int64 (n : Int64) : Denotes (.int n.toInt) .int64 (.int64 n)
  | double {x : Float} {n : Int64} (h : Binary64.value? x = some (n.toInt : ℚ)) :
      Denotes (.float (.ofFloat x)) .float64 (.int64 n)
  | float64 (x : Double) : Denotes (.float x) .float64 (.float64 x)
  | string (s : String) : Denotes (.text s) .string (.string s)
  | binary (bytes : List UInt8) : Denotes (.bytes bytes) .binary (.binary bytes)
  | date (days : Int32) : Denotes (.int days.toInt) .date (.date days)
  | midnight {ticks : Int} {unit : TimeUnit} {days : Int32}
      (h : Instant.ofTicks ticks unit = Instant.ofDays days.toInt) :
      Denotes (.int ticks) (.timestamp unit) (.date days)
  | timestamp (ticks : Int64) (unit : TimeUnit) :
    Denotes (.int ticks.toInt) (.timestamp unit) (.timestamp ticks unit)
  | interval (steps : Int64) (unit : IntervalUnit) :
    Denotes (.int steps.toInt) (.interval unit) (.interval steps unit)

namespace Value

def isArray : Value → Bool
  | array _ => true
  | _ => false

/-- Nothing of the value is lost in a column of the type: a whole number is in the range of
the column, or one of its doubles, and a date in a column of timestamps is the day that
time is counted from. -/
def Kept (t : DataType) : Value → Prop
  | int64 n => (t = .int32 → Instant.fitsInt32 n.toInt = true)
      ∧ (t = .float64 → ∃ x, Binary64.value? x = some (n.toInt : ℚ))
  | date days => t = .date ∨ days = 0
  | _ => True

/-- The cell that the engine makes of a value in a column of a type that the value fits. -/
def cellIn (t : DataType) : Value → Cell
  | null | array _ => .null
  | bool b => .bool b
  | int64 n =>
    match t with
    | .int32 => Cast.toInt32 n.toInt
    | .float64 => .float (.ofFloat (Binary64.ofInt n.toInt))
    | _ => .int n.toInt
  | float64 x => .float x
  | string s => .text s
  | binary bytes => .bytes bytes
  | date n => .int n.toInt
  | timestamp n _ | interval n _ => .int n.toInt

variable {v : Value} {t : DataType}

theorem type_of_fits (h : Validator.fits v.dataType t = true) :
    v = .null ∨ v.isArray = true ∨ v.dataType = t
      ∨ (∃ n, v = .int64 n ∧ (t = .int32 ∨ t = .float64))
      ∨ ∃ days unit, v = .date days ∧ t = .timestamp unit := by
  cases v <;> cases t <;> simp_all [Validator.fits, dataType, DataType.canCoerceTo, isArray,
    DataType.isInteger]

end Value

/-! ## Conversion -/

namespace Cast

theorem toInt32_of_int32 (n : Int32) : toInt32 n.toInt = .int n.toInt :=
  if_pos (Bool.and_eq_true_iff.2
    ⟨decide_eq_true (Int32.minValue_le_toInt n), decide_eq_true (Int32.toInt_le n)⟩)

end Cast

theorem Column.cast_constant {source target : Physical} {cell out : Cell}
    (hne : source ≠ target) (hcasts : source.casts target = true)
    (h : Cast.cell source target cell = .ok out) (rows : Nat) :
    (constant source cell rows).cast target = .ok (constant target out rows) := by
  have hcells : castCells source target (List.replicate rows cell)
      = .ok (List.replicate rows out) := by
    rw [castCells_eq_mapM]
    induction rows with
    | zero => rfl
    | succ rows ih =>
        rw [List.replicate_succ, List.mapM_cons, h, ih]
        rfl
  rw [cast, constant, if_neg hne, if_pos hcasts, hcells]
  rfl

namespace Literal

variable {v : Value} {t : DataType} {source : Physical} {cell out : Cell}

theorem column_of_stored (hnull : v.isNull = false) (hstored : stored v = .ok (source, cell))
    (ht : Physical.ofLogical t ≠ .null) (rows : Nat) :
    column v t rows = (Column.constant source cell rows).cast (Physical.ofLogical t) := by
  rw [column, hnull, hstored]
  exact if_neg ht

theorem column_of_converted (hnull : v.isNull = false)
    (hstored : stored v = .ok (source, cell)) (ht : Physical.ofLogical t ≠ .null)
    (hne : source ≠ Physical.ofLogical t)
    (hcasts : source.casts (Physical.ofLogical t) = true)
    (hcell : Cast.cell source (Physical.ofLogical t) cell = .ok out) (rows : Nat) :
    column v t rows = .ok (.constant (Physical.ofLogical t) out rows) :=
  (column_of_stored hnull hstored ht rows).trans (Column.cast_constant hne hcasts hcell rows)

/-- A value that fits a type becomes a column of it. -/
theorem column_of_fits (hfits : Validator.fits v.dataType t = true)
    (harray : v.isArray = false) (rows : Nat) :
    column v t rows = .ok (.constant (Physical.ofLogical t) (v.cellIn t) rows) := by
  rcases Value.type_of_fits hfits with rfl | h | rfl | ⟨n, rfl, rfl | rfl⟩
    | ⟨days, unit, rfl, rfl⟩
  · rfl
  · rw [harray] at h
    cases h
  · -- Only a date is not stored as it is.
    cases v with
    | array => cases harray
    | null => rfl
    | date days =>
        have hcell : Cast.cell .int32 .date (.int days.toInt) = .ok (.int days.toInt) :=
          congrArg Except.ok (Cast.toInt32_of_int32 days)
        exact column_of_converted rfl rfl (by nofun) (by nofun) rfl hcell rows
    | _ => exact (column_of_stored rfl rfl (by nofun) rows).trans (if_pos rfl)
  · exact column_of_converted rfl rfl (by nofun) (by nofun) rfl rfl rows
  · exact column_of_converted rfl rfl (by nofun) (by nofun) rfl rfl rows
  · exact column_of_converted rfl rfl (by nofun) (by nofun) rfl rfl rows

end Literal

/-! ## What is kept -/

theorem Instant.ofTicks_eq_ofDays_iff {n : Int} {unit : TimeUnit} :
    ofTicks n unit = ofDays n ↔ n = 0 := by
  constructor
  · intro h
    have hnanos := congrArg exactNanos h
    rw [ofTicks, exactNanos_ofNanos] at hnanos
    simp only [exactNanos, seconds, ofDays, secondsPerDay, nanosPerSecond] at hnanos
    cases unit <;> simp only [TimeUnit.nanos] at hnanos <;> omega
  · rintro rfl
    cases unit <;> rfl

namespace Value

variable {v : Value} {t : DataType}

/-- In a column of its own type every value is kept. -/
theorem kept_own (v : Value) : v.Kept v.dataType := by
  cases v with
  | int64 n => exact ⟨nofun, nofun⟩
  | date days => exact .inl rfl
  | _ => trivial

theorem denotes_own (harray : v.isArray = false) :
    (v.cellIn v.dataType).Denotes v.dataType v := by
  cases v with
  | null => exact .null _
  | bool b => exact .bool b
  | int64 n => exact .int64 n
  | float64 x => exact .float64 x
  | string s => exact .string s
  | binary bytes => exact .binary bytes
  | date days => exact .date days
  | timestamp ticks unit => exact .timestamp ticks unit
  | interval steps unit => exact .interval steps unit
  | array items => cases harray

theorem denotes_int32 (n : Int64) :
    ((int64 n).cellIn .int32).Denotes .int32 (int64 n)
      ↔ Instant.fitsInt32 n.toInt = true := by
  show (if Instant.fitsInt32 n.toInt then Cell.int n.toInt else .null).Denotes
    .int32 (int64 n) ↔ _
  split
  · next h => exact ⟨fun _ => h, .int32⟩
  · next h => exact ⟨nofun, fun hfits => absurd hfits h⟩

theorem denotes_double (n : Int64) :
    ((int64 n).cellIn .float64).Denotes .float64 (int64 n)
      ↔ ∃ x, Binary64.value? x = some (n.toInt : ℚ) := by
  constructor
  · intro h
    generalize (int64 n).cellIn .float64 = cell at h
    cases h with
    | @double x _ h => exact ⟨x, h⟩
  · exact fun h => .double (Binary64.value?_ofInt h)

theorem denotes_midnight (days : Int32) (unit : TimeUnit) :
    ((date days).cellIn (.timestamp unit)).Denotes (.timestamp unit) (date days)
      ↔ days = 0 := by
  constructor
  · intro h
    obtain ⟨cell, hcell⟩ : ∃ cell, (date days).cellIn (.timestamp unit) = cell := ⟨_, rfl⟩
    rw [hcell] at h
    cases h with
    | @midnight ticks _ _ h =>
        cases hcell
        exact Int32.toInt_inj.1 (Instant.ofTicks_eq_ofDays_iff.1 h)
  · rintro rfl
    exact .midnight (Instant.ofTicks_eq_ofDays_iff.2 rfl)

/-- The cell of a value denotes it exactly if nothing of the value is lost. -/
theorem denotes_cellIn (hfits : Validator.fits v.dataType t = true)
    (harray : v.isArray = false) :
    (v.cellIn t).Denotes t v ↔ v.Kept t := by
  rcases Value.type_of_fits hfits with rfl | h | rfl | ⟨n, rfl, rfl | rfl⟩
    | ⟨days, unit, rfl, rfl⟩
  · exact iff_of_true (.null t) trivial
  · rw [harray] at h
    cases h
  · exact iff_of_true (denotes_own harray) v.kept_own
  · rw [denotes_int32]
    exact ⟨fun h => ⟨fun _ => h, nofun⟩, fun h => h.1 rfl⟩
  · rw [denotes_double]
    exact ⟨fun h => ⟨nofun, fun _ => h⟩, fun h => h.2 rfl⟩
  · rw [denotes_midnight]
    exact ⟨.inr, fun h => h.resolve_left nofun⟩

/-- A cell is null where the value is, and where a whole number is out of the range
of a column of 32 bits. -/
theorem isNull_cellIn (hfits : Validator.fits v.dataType t = true)
    (harray : v.isArray = false) :
    (v.cellIn t).isNull = true ↔ v = .null ∨ t = .int32 ∧ ¬ v.Kept t := by
  rcases Value.type_of_fits hfits with rfl | h | rfl | ⟨n, rfl, rfl | rfl⟩
    | ⟨days, unit, rfl, rfl⟩
  · exact iff_of_true rfl (.inl rfl)
  · rw [harray] at h
    cases h
  · have hkept : ¬ (v.dataType = .int32 ∧ ¬ v.Kept v.dataType) := fun h => h.2 v.kept_own
    rw [or_iff_left hkept]
    cases v with
    | null => exact iff_of_true rfl rfl
    | array => cases harray
    | _ => exact ⟨nofun, nofun⟩
  · show (if Instant.fitsInt32 n.toInt then Cell.int n.toInt else .null).isNull = true ↔ _
    split
    · next h =>
        exact ⟨nofun, fun hlost => (hlost.resolve_left nofun).2.elim ⟨fun _ => h, nofun⟩⟩
    · next h => exact iff_of_true rfl (.inr ⟨rfl, fun hkept => h (hkept.1 rfl)⟩)
  · exact ⟨nofun, fun h => by cases (h.resolve_left nofun).1⟩
  · exact ⟨nofun, fun h => by cases (h.resolve_left nofun).1⟩

end Value

/-! ## Batches -/

/-- Where the one list has a member, so has the other, and the two are related. -/
theorem exists_of_forall₂_getElem? {α β : Type} {R : α → β → Prop} {xs : List α}
    {ys : List β} (h : List.Forall₂ R xs ys) {i : Nat} {y : β} (hy : ys[i]? = some y) :
    ∃ x, xs[i]? = some x ∧ R x y := by
  induction h generalizing i with
  | nil => cases hy
  | cons hxy _ ih =>
      cases i with
      | zero => cases hy; exact ⟨_, rfl, hxy⟩
      | succ i => exact ih hy

namespace Batch

/-- The column of the values that rows have in a place. -/
def givenColumn (rows : List (List Value)) (t : DataType) (position : Nat) : Column :=
  ⟨Physical.ofLogical t, rows.map fun row => (row[position]?.getD .null).cellIn t⟩

/-- Cells under each other. -/
theorem stack_constants (t : Physical) (cell : Cell) (cells : List Cell) :
    stack ((cell :: cells).map fun cell => Column.constant t cell 1)
      = .ok ⟨t, cell :: cells⟩ := by
  have htypes : ((cells.map fun cell => Column.constant t cell 1).all fun part =>
      part.type = t) = true := by
    simp [Column.constant]
  have hcells :
      (cells.map fun cell => Column.constant t cell 1).flatMap (·.cells) = cells := by
    simp [Column.constant, List.flatMap_map]
  rw [List.map_cons, stack]
  refine (if_pos htypes).trans ?_
  rw [hcells]
  rfl

section

variable {column : ColumnInfo} {position : Nat} {rows : List (List Value)}
  (h : ∀ row ∈ rows, ∃ v, row[position]? = some v
    ∧ Validator.fits v.dataType column.dataType = true ∧ v.isArray = false)

include h

theorem cellsOf_of_fits :
    cellsOf column position rows
      = .ok ((givenColumn rows column.dataType position).cells.map fun cell =>
      .constant (Physical.ofLogical column.dataType) cell 1) := by
  induction rows with
  | nil => rfl
  | cons row rest ih =>
      obtain ⟨⟨v, hv, hfits, harray⟩, hrest⟩ := List.forall_mem_cons.1 h
      have hcell : cellOf column position row
          = .ok (.constant (Physical.ofLogical column.dataType)
            ((row[position]?.getD .null).cellIn column.dataType) 1) := by
        rw [cellOf, hv]
        exact Literal.column_of_fits hfits harray 1
      rw [cellsOf, hcell, ih hrest]
      rfl

theorem columnOf_of_fits :
    columnOf rows column position = .ok (givenColumn rows column.dataType position) := by
  cases rows with
  | nil => rfl
  | cons row rest =>
      rw [columnOf, if_neg (by simp), cellsOf_of_fits h]
      exact stack_constants ..

end

/-- The batch of given rows: a cell for every value. -/
def given (s : Schema) (rows : List (List Value)) : Batch :=
  ⟨rows.length, s.columns.zipIdx.map fun c => (c.1.name, givenColumn rows c.1.dataType c.2)⟩

/-- What does not depend on the place of a column can be told from the schema. -/
theorem map_columns_given {α : Type} {f : String × Column → α} {g : ColumnInfo → α}
    {rows : List (List Value)}
    (h : ∀ column position, f (column.name, givenColumn rows column.dataType position)
      = g column) (s : Schema) :
    (given s rows).columns.map f = s.columns.map g := by
  have hcolumns :
      (f ∘ fun c : ColumnInfo × Nat => (c.1.name, givenColumn rows c.1.dataType c.2))
        = g ∘ Prod.fst :=
    funext fun c => h c.1 c.2
  rw [given, List.map_map, hcolumns, ← List.map_map, List.zipIdx_map_fst]

theorem columnsOf_of_fits {columns : List ColumnInfo} {position : Nat}
    {rows : List (List Value)}
    (h : ∀ c ∈ columns.zipIdx position, ∀ row ∈ rows, ∃ v, row[c.2]? = some v
      ∧ Validator.fits v.dataType c.1.dataType = true ∧ v.isArray = false) :
    columnsOf rows position columns
      = .ok ((columns.zipIdx position).map fun c =>
        (c.1.name, givenColumn rows c.1.dataType c.2)) := by
  induction columns generalizing position with
  | nil => rfl
  | cons column rest ih =>
      rw [List.zipIdx_cons] at h
      obtain ⟨hhere, hrest⟩ := List.forall_mem_cons.1 h
      rw [columnsOf, columnOf_of_fits hhere, ih hrest]
      rfl

theorem conforms_given (s : Schema) (rows : List (List Value)) :
    conforms s (given s rows).columns = true ↔ ¬ s.columns = [] := by
  have htypes : (given s rows).columns.map (fun c => c.2.type) = s.columns.map fun c =>
      Physical.ofLogical c.dataType :=
    map_columns_given (fun _ _ => rfl) s
  have hempty : (given s rows).columns = [] ↔ s.columns = [] :=
    List.map_eq_nil_iff.trans List.zipIdx_eq_nil_iff
  rw [conforms, htypes, decide_eq_true rfl, Bool.and_true, Bool.not_eq_true',
    ← Bool.not_eq_true, List.isEmpty_iff, hempty]

/-- Rows of values that fit make a batch, provided that there are columns. -/
theorem ofRows_of_fits {s : Schema} {rows : List (List Value)}
    (hfits : ∀ row ∈ rows, List.Forall₂
      (fun v column => Validator.fits v.dataType column.dataType = true) row s.columns)
    (harray : ∀ row ∈ rows, ∀ v ∈ row, v.isArray = false) :
    ofRows s rows = if s.columns = [] then .error (.compute .invalidArgument)
      else .ok (given s rows) := by
  have hcells : ∀ c ∈ s.columns.zipIdx, ∀ row ∈ rows, ∃ v, row[c.2]? = some v
      ∧ Validator.fits v.dataType c.1.dataType = true ∧ v.isArray = false := by
    intro c hc row hrow
    have hcolumn : s.columns[c.2]? = some c.1 := List.mem_zipIdx_iff_getElem?.1 hc
    obtain ⟨v, hv, hfit⟩ := exists_of_forall₂_getElem? (hfits row hrow) hcolumn
    exact ⟨v, hv, hfit, harray row hrow v (List.mem_of_getElem? hv)⟩
  rw [ofRows, columnsOf_of_fits hcells]
  refine Eq.trans (if_congr (conforms_given s rows) rfl rfl) (ite_not ..)

/-- The cell of a row in a column. -/
def cellAt (b : Batch) (i j : Nat) : Option Cell := b.columns[j]?.bind fun c => c.2.cells[i]?

theorem columns_given (s : Schema) (rows : List (List Value)) :
    (given s rows).columns.map (fun c => (c.1, c.2.type, c.2.length))
      = s.columns.map fun c => (c.name, Physical.ofLogical c.dataType, rows.length) :=
  map_columns_given (fun _ _ => by rw [Column.length, givenColumn, List.length_map]) s

theorem cellAt_given {s : Schema} {rows : List (List Value)} {i j : Nat} {row : List Value}
    {column : ColumnInfo} {v : Value} (hrow : rows[i]? = some row)
    (hcolumn : s.columns[j]? = some column) (hv : row[j]? = some v) :
    (given s rows).cellAt i j = some (v.cellIn column.dataType) := by
  have hgiven : (given s rows).columns[j]?
      = some (column.name, givenColumn rows column.dataType j) := by
    rw [given, List.getElem?_map, List.getElem?_zipIdx, hcolumn, Nat.zero_add]
    rfl
  rw [cellAt, hgiven, Option.bind_some, givenColumn, List.getElem?_map, hrow,
    Option.map_some, hv]
  rfl

end Batch

end TypedQuery
