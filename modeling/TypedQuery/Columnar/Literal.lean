import TypedQuery.Columnar.Cast
import TypedQuery.Schema.Basic
import TypedQuery.Text.Quoted
import TypedQuery.Value.Basic

/-!
# Columns from values

A value becomes a column by repeating it. It is first stored as what it is
(dates and intervals as plain counts, timestamps in their own unit) and then
converted to the type asked for.
-/

namespace TypedQuery

namespace Literal

/-- How a value that is not null is stored by itself. -/
def stored : Value → Except Error (Physical × Cell)
  | .null => .ok (.null, .null)
  | .bool b => .ok (.boolean, .bool b)
  | .int64 n => .ok (.int64, .int n.toInt)
  | .float64 x => .ok (.float64, .float x)
  | .string s => .ok (.text, .text s)
  | .binary bs => .ok (.binary, .bytes bs)
  | .date days => .ok (.int32, .int days.toInt)
  | .timestamp ticks unit => .ok (.timestamp unit, .int ticks.toInt)
  | .interval steps _ => .ok (.int64, .int steps.toInt)
  | .array _ => .error (.notImplemented "array literals in the engine")

/-- The value in every one of `rows` rows. A type without values of its own leaves the
value as it is stored. -/
def column (v : Value) (t : DataType) (rows : Nat) : Except Error Column :=
  let target := Physical.ofLogical t
  if v.isNull then .ok (.nulls target rows)
  else do
    let (source, cell) ← stored v
    let c := Column.constant source cell rows
    if target = .null then .ok c else c.cast target

end Literal

namespace Batch

/-- One cell of a row in its column. -/
def cellOf (column : ColumnInfo) (position : Nat) (row : List Value) : Except Error Column :=
  match row[position]? with
  | some v => Literal.column v column.dataType 1
  | none => .error (.value ("row has no value for column " ++ Text.quote column.name))

def cellsOf (column : ColumnInfo) (position : Nat) :
    List (List Value) → Except Error (List Column)
  | [] => .ok []
  | row :: rest => do
    let here ← cellOf column position row
    let after ← cellsOf column position rest
    .ok (here :: after)

/-- Columns of one type under each other. -/
def stack : List Column → Except Error Column
  | [] => .error (.compute .invalidArgument)
  | first :: rest =>
    if rest.all fun part => part.type = first.type then
      .ok ⟨first.type, first.cells ++ rest.flatMap (·.cells)⟩
    else .error (.compute .invalidArgument)

def columnOf (rows : List (List Value)) (column : ColumnInfo) (position : Nat) :
    Except Error Column := do
  if rows.isEmpty then .ok ⟨Physical.ofLogical column.dataType, []⟩
  else stack (← cellsOf column position rows)

def columnsOf (rows : List (List Value)) (position : Nat) :
    List ColumnInfo → Except Error (List (String × Column))
  | [] => .ok []
  | column :: rest => do
    let here ← columnOf rows column position
    let after ← columnsOf rows (position + 1) rest
    .ok ((column.name, here) :: after)

/-- Whether the columns have the types of the schema, and there are some. -/
def conforms (schema : Schema) (columns : List (String × Column)) : Bool :=
  !columns.isEmpty
    && (columns.map fun c => c.2.type) = schema.columns.map fun c =>
      Physical.ofLogical c.dataType

/-- The batch of some rows, each value converted to the type of its column. -/
def ofRows (schema : Schema) (rows : List (List Value)) : Except Error Batch := do
  let columns ← columnsOf rows 0 schema.columns
  if conforms schema columns then .ok ⟨rows.length, columns⟩
    else .error (.compute .invalidArgument)

end Batch

end TypedQuery
