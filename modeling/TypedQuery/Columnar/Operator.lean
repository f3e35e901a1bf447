import TypedQuery.Columnar.Combine

/-!
# Operators on columns

Arithmetic on whole numbers is checked: a result outside the type is an error and not
another number. Arithmetic on doubles never fails. Comparisons order doubles totally, so
that a comparison is null only where an operand is.

Checked arithmetic clears the slot of a missing result. Operations that cannot fail do
not look whether their operands are missing: they leave behind what they compute from
the contents of the slots.
-/

namespace TypedQuery.Column

/-- The first failure of a row, or all rows. -/
def rowwise (f : Cell → Cell → Except ComputeFailure Cell) :
    List (Option (Cell × Cell)) → Except ComputeFailure (List Cell)
  | [] => .ok []
  | none :: rest => do .ok (.null :: (← rowwise f rest))
  | some (l, r) :: rest => do
    let here ← f l r
    let after ← rowwise f rest
    .ok (here :: after)

def computed (type : Physical) : Except ComputeFailure (List Cell) → Except Error Column
  | .ok cells => .ok ⟨type, cells⟩
  | .error failure => .error (.compute failure)

/-! ## Arithmetic -/

inductive Arithmetic where
  | add
  | subtract
  | multiply
  | divide
  | remainder
  deriving DecidableEq

namespace Arithmetic

/-- The exact result on whole numbers; division drops the fraction. -/
def onInts : Arithmetic → Int → Int → Except ComputeFailure Int
  | add, a, b => .ok (a + b)
  | subtract, a, b => .ok (a - b)
  | multiply, a, b => .ok (a * b)
  | divide, a, b => if b = 0 then .error .divideByZero else .ok (a.tdiv b)
  | remainder, a, b => if b = 0 then .error .divideByZero else .ok (a.tmod b)

def onFloats : Arithmetic → Double → Double → Double
  | add, a, b => a + b
  | subtract, a, b => a - b
  | multiply, a, b => a * b
  | divide, a, b => a / b
  | remainder, a, b => Double.lift₂ Binary64.remainder a b

def checked (fits : Int → Bool) (op : Arithmetic) : Cell → Cell → Except ComputeFailure Cell
  | .int a, .int b => do
    let n ← op.onInts a b
    if fits n then .ok (.int n) else .error .arithmeticOverflow
  | _, _ => .ok .null

def unchecked (op : Arithmetic) : Cell → Cell → Cell
  | .float a, .float b => .float (op.onFloats a b)
  | a, b => .missing (.float (op.onFloats a.floatContent b.floatContent))

end Arithmetic

/-- Arithmetic on two columns of one type. All arithmetic on what is no number is an error
here, also the difference of two dates or of two timestamps, for which there would be a
duration. Nodes take numbers only. -/
def arithmetic (op : Arithmetic) (left right : Column) : Except Error Column := do
  let rows ← pairs left right
  match left.type with
  | .int32 => computed .int32 (rowwise (op.checked Instant.fitsInt32) rows)
  | .int64 => computed .int64 (rowwise (op.checked Instant.fitsInt64) rows)
  | .float64 =>
    .ok ⟨.float64, rows.map fun row => (row.map fun (l, r) => op.unchecked l r).getD .null⟩
  | _ => .error (.compute .invalidArgument)

def negateInts (fits : Int → Bool) : List Cell → Except ComputeFailure (List Cell)
  | [] => .ok []
  | .int n :: rest =>
    if fits (-n) then
      do .ok (.int (-n) :: (← negateInts fits rest)) else .error .arithmeticOverflow
  | _ :: rest => do .ok (.null :: (← negateInts fits rest))

def negateFloat : Cell → Cell
  | .float x => .float x.negate
  | cell => .missing (.float cell.floatContent.negate)

def negate (c : Column) : Except Error Column :=
  match c.type with
  | .int32 => computed .int32 (negateInts Instant.fitsInt32 c.cells)
  | .int64 => computed .int64 (negateInts Instant.fitsInt64 c.cells)
  | .float64 => .ok ⟨.float64, c.cells.map negateFloat⟩
  | _ => .error (.compute .invalidArgument)

def mapDoubles (f : Double → Double) (c : Column) : Except Error Column := do
  .ok (.floats ((← c.toFloats).map (Option.map f)))

def mapFloats (f : Float → Float) (c : Column) : Except Error Column :=
  c.mapDoubles (Double.lift f)

def power (left right : Column) : Except Error Column := do
  let base ← left.cast .float64
  let exponent ← right.cast .float64
  let rows := max base.length exponent.length
  let base ← base.broadcast rows
  let exponent ← exponent.broadcast rows
  .ok (.floats ((base.cells.zip exponent.cells).map fun
    | (.float x, .float y) => some (Double.lift₂ Float.pow x y)
    | _ => none))

/-- Whole numbers keep their type, and a magnitude outside it becomes null; all else
goes through doubles. -/
def abs (c : Column) : Except Error Column :=
  if c.type.isInteger then
    Column.cast ⟨.int64, c.cells.map fun
      | .int n => .int (Cast.wrap64 (if n < 0 then -n else n))
      | _ => .null⟩ c.type
  else mapDoubles Double.abs c

def sign (c : Column) : Except Error Column := do
  (← mapDoubles Double.sign c).cast c.type

/-! ## Comparison -/

inductive Comparison where
  | equal
  | notEqual
  | less
  | lessEqual
  | greater
  | greaterEqual
  deriving DecidableEq

def Comparison.holds : Comparison → Ordering → Bool
  | equal, o => decide (o = .eq)
  | notEqual, o => decide (o ≠ .eq)
  | less, o => decide (o = .lt)
  | lessEqual, o => decide (o ≠ .gt)
  | greater, o => decide (o = .gt)
  | greaterEqual, o => decide (o ≠ .lt)

/-- How the contents of two slots of a type compare. -/
def orderContents : Physical → Cell → Cell → Ordering
  | .boolean, l, r => Cell.order true (.bool l.boolContent) (.bool r.boolContent)
  | .int32, l, r | .int64, l, r | .date, l, r | .timestamp _, l, r =>
    Cell.order true (.int l.intContent) (.int r.intContent)
  | .float64, l, r => l.floatContent.order r.floatContent
  | .text, l, r => Cell.order true (.text (l.text?.getD "")) (.text (r.text?.getD ""))
  | .binary, l, r => Cell.order true (.bytes (l.bytes?.getD [])) (.bytes (r.bytes?.getD []))
  | .null, l, r | .list _, l, r => Cell.order true l r

def compareCells (op : Comparison) (t : Physical) (l r : Cell) : Cell :=
  if l.isNull || r.isNull then
    if t = .null then .null else .missing (.bool (op.holds (orderContents t l r)))
  else .bool (op.holds (Cell.order true l r))

/-- Compares two columns of one type; lists are not compared. -/
def compare (op : Comparison) (left right : Column) : Except Error Column := do
  let rows ← pairs left right
  if left.type.isList then .error (.compute .invalidArgument)
  else .ok ⟨.boolean,
    rows.map fun row => (row.map fun (l, r) => compareCells op left.type l r).getD .null⟩

/-! ## Logic -/

inductive Logic where
  | and
  | or
  | xor
  deriving DecidableEq

/-- Logic with an unknown: a result is known as soon as it does not depend on what is
unknown. -/
def Logic.apply : Logic → Option Bool → Option Bool → Option Bool
  | and, some false, _ | and, _, some false => some false
  | and, some true, some true => some true
  | or, some true, _ | or, _, some true => some true
  | or, some false, some false => some false
  | xor, some a, some b => some (a != b)
  | _, _, _ => none

/-- Logic on contents, which are all known. -/
def Logic.onContents : Logic → Bool → Bool → Bool
  | and => Bool.and
  | or => Bool.or
  | xor => bne

def logicCells (op : Logic) (l r : Cell) : Cell :=
  match op.apply l.bool? r.bool? with
  | some b => .bool b
  | none => .missing (.bool (op.onContents l.boolContent r.boolContent))

def logic (op : Logic) (left right : Column) : Except Error Column := do
  let rows := max left.length right.length
  let ls ← (← left.broadcast rows).condition
  let rs ← (← right.broadcast rows).condition
  .ok ⟨.boolean, List.zipWith (logicCells op) ls rs⟩

def negateBool : Cell → Cell
  | .bool b => .bool !b
  | cell => .missing (.bool !cell.boolContent)

def negateCondition (c : Column) : Except Error Column := do
  .ok ⟨.boolean, (← c.condition).map negateBool⟩

/-! ## Bits -/

inductive Bitwise where
  | and
  | or
  | xor
  | shiftLeft
  | shiftRight
  deriving DecidableEq

/-- Shifts count modulo the width, and a shift to the right keeps the sign. -/
def Bitwise.apply : Bitwise → Int64 → Int64 → Int64
  | and, a, b => a &&& b
  | or, a, b => a ||| b
  | xor, a, b => a ^^^ b
  | shiftLeft, a, b => a <<< b
  | shiftRight, a, b => a >>> b

def Bitwise.onInts (op : Bitwise) (a b : Int) : Int :=
  (op.apply (Int64.ofInt a) (Int64.ofInt b)).toInt

def bitwiseCells (op : Bitwise) : Cell → Cell → Cell
  | .int a, .int b => .int (op.onInts a b)
  | a, b => .missing (.int (op.onInts a.intContent b.intContent))

def bitwise (op : Bitwise) (left right : Column) : Except Error Column := do
  let rows := max left.length right.length
  let ls ← (← left.broadcast rows).cast .int64
  let rs ← (← right.broadcast rows).cast .int64
  .ok ⟨.int64, List.zipWith (bitwiseCells op) ls.cells rs.cells⟩

def complementCell : Cell → Cell
  | .int n => .int (-n - 1)
  | cell => .missing (.int (-cell.intContent - 1))

def complement (c : Column) : Except Error Column := do
  .ok ⟨.int64, (← c.cast .int64).cells.map complementCell⟩

def floatTest (f : Double → Bool) (c : Column) : Except Error Column := do
  .ok (.bools ((← c.toFloats).map (Option.map f)))

end TypedQuery.Column
