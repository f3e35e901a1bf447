import TypedQuery.Columnar.Cast

/-!
# Bringing columns together

Operations on two columns work row by row. A column of a single row stands for that row
repeated, and two columns of different types are converted to a common one first.
-/

namespace TypedQuery.Column

/-- The message for columns that do not have the same number of rows. -/
def unequalRows (left right : Nat) : Error :=
  .execution ("cannot combine columns of " ++ toString left ++ " and "
    ++ toString right ++ " rows")

/-- A column of `rows` rows: a single row is repeated. -/
def broadcast (c : Column) (rows : Nat) : Except Error Column :=
  if c.length = rows then .ok c
  else
    match c.cells with
    | [cell] => .ok (.constant c.type cell rows)
    | _ => .error (unequalRows c.length rows)

/-- The rows of two columns side by side. A single row stands beside every row of the other
column; where it is missing there is nothing to compute with. -/
def pairs (left right : Column) : Except Error (List (Option (Cell × Cell))) :=
  if left.length = right.length then .ok ((left.cells.zip right.cells).map some)
  else
    match left.cells, right.cells with
    | [l], rs => .ok (rs.map fun r => if l.isNull then none else some (l, r))
    | ls, [r] => .ok (ls.map fun l => if r.isNull then none else some (l, r))
    | _, _ => .error (unequalRows left.length right.length)

/-- The type in which values of two types are combined. -/
def commonType (l r : Physical) : Except Error Physical :=
  if l = r then .ok l
  else
    match l, r with
    | .null, other | other, .null => .ok other
    | .float64, _ | _, .float64 => .ok .float64
    | .int32, .int64 | .int64, .int32 => .ok .int64
    | .timestamp unit, .date | .date, .timestamp unit => .ok (.timestamp unit)
    | .text, .date | .date, .text => .ok .date
    | .text, .timestamp unit | .timestamp unit, .text => .ok (.timestamp unit)
    | _, _ => .error
      (.type ("incompatible operand types " ++ l.describe ++ " and " ++ r.describe))

/-- Both columns in their common type. -/
def coerce (left right : Column) : Except Error (Column × Column) := do
  let t ← commonType left.type right.type
  .ok (← left.cast t, ← right.cast t)

/-- The cells of a column that must have the type of conditions. -/
def condition (c : Column) : Except Error (List Cell) :=
  if c.type = .boolean then .ok c.cells
  else .error (.type ("unexpected array type " ++ c.type.describe))

/-- A column converted to whole numbers. -/
def toInts (c : Column) : Except Error (List (Option Int)) := do
  .ok ((← c.cast .int64).cells.map Cell.int?)

/-- A column converted to doubles. -/
def toFloats (c : Column) : Except Error (List (Option Double)) := do
  .ok ((← c.cast .float64).cells.map Cell.float?)

/-- A column converted to texts. -/
def toTexts (c : Column) : Except Error (List (Option String)) := do
  .ok ((← c.cast .text).cells.map Cell.text?)

/-- A cell of the one column where the mask holds, and of the other elsewhere. -/
def choose : List Bool → List Cell → List Cell → List Cell
  | m :: mask, a :: as, b :: bs => (if m then a else b) :: choose mask as bs
  | _, _, _ => []

/-- `thenColumn` where the mask holds, and `otherwise` elsewhere. -/
def select (mask : List Bool) (thenColumn otherwise : Column) : Except Error Column := do
  let rows := max mask.length (max thenColumn.length otherwise.length)
  let mask ← (Column.bools (mask.map some)).broadcast rows
  let (a, b) ← coerce thenColumn otherwise
  let a ← a.broadcast rows
  let b ← b.broadcast rows
  .ok ⟨a.type, choose (mask.cells.map Cell.isTrue) a.cells b.cells⟩

def isNull (c : Column) : List Bool := c.cells.map Cell.isNull

end TypedQuery.Column
