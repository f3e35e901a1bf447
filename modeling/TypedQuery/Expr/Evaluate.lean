import TypedQuery.Columnar.Apply
import TypedQuery.Columnar.Literal
import TypedQuery.Expr.Basic

/-!
# Evaluation

`Expr.evaluate` computes a column from the columns of a batch. A reduction gives a single
row, and a single row beside a full column stands for itself repeated, so that `sum(x) + 1`
and `x + 1` work alike. The first failure in evaluation order is the failure of the whole.
-/

namespace TypedQuery

/-! ## Operators -/

def BinaryOp.apply (op : BinaryOp) (left right : Column) : Except Error Column := do
  let (left, right) ← Column.coerce left right
  match op with
  | arithmetic op => Column.arithmetic op left right
  | power => Column.power left right
  | compare op => Column.compare op left right
  | logic op => Column.logic op left right
  | bitwise op => Column.bitwise op left right

def UnaryOp.apply (op : UnaryOp) (c : Column) : Except Error Column :=
  match op with
  | negate => c.negate
  | not => c.negateCondition
  | complement => c.complement
  | isNull => .ok (.bools (c.isNull.map some))
  | isNotNull => .ok (.bools (c.isNull.map fun b => some !b))
  | isNan => c.floatTest Double.isNaN
  | isInfinite => c.floatTest Double.isInfinite
  | abs => c.abs
  | ceil => c.mapFloats Binary64.ceil
  | floor => c.mapFloats Binary64.floor
  | round => c.mapFloats Binary64.round
  | exp => c.mapFloats Float.exp
  | ln => c.mapFloats Float.log
  | log2 => c.mapFloats Float.log2
  | log10 => c.mapFloats Float.log10
  | sqrt => c.mapFloats Float.sqrt
  | sign => c.sign
  | acos => c.mapFloats Float.acos
  | asin => c.mapFloats Float.asin
  | atan => c.mapFloats Float.atan
  | cos => c.mapFloats Float.cos
  | sin => c.mapFloats Float.sin
  | tan => c.mapFloats Float.tan

namespace Column

/-- A column in which another one stands in for nulls. -/
def orElse (c fill : Column) : Except Error Column := do
  let fill ← fill.cast c.type
  select (c.isNull.map (!·)) c fill

/-- A column in which another one stands in for what is not a number. Only doubles can be
that. -/
def fillNan (c fill : Column) : Except Error Column := do
  let fill ← fill.cast .float64
  select (c.cells.map fun cell => !(cell.float?.any Double.isNaN)) c fill

/-- The first that is not null of several columns, in the type of the first column. -/
def coalesce : List Column → Except Error Column
  | [] => .error (.execution "coalesce of nothing")
  | [c] => .ok c
  | c :: rest => do c.orElse (← coalesce rest)

/-- One column or the other row by row: the one that compares better, or the
one that is not null. -/
def better (op : Comparison) (current next : Column) : Except Error Column := do
  let (current, next) ← coerce current next
  let compared ← compare op current next
  if current.length = next.length then
    let keep := (current.cells.zip (next.cells.zip compared.cells)).map fun (c, n, b) =>
      !c.isNull && (n.isNull || b.isTrue)
    select keep current next
  else .error (.compute .unsupported)

def extremeFrom (op : Comparison) (current : Column) : List Column → Except Error Column
  | [] => .ok current
  | next :: rest => do extremeFrom op (← better op current next) rest

/-- The best of several columns row by row, without regard to nulls. -/
def horizontal (op : Comparison) : List Column → Except Error Column
  | [] => .error (.execution "horizontal reduction of nothing")
  | c :: rest => extremeFrom op c rest

/-- All columns at a given height. -/
def broadcastAll (rows : Nat) : List Column → Except Error (List Column)
  | [] => .ok []
  | c :: rest => do
    let here ← c.broadcast rows
    .ok (here :: (← broadcastAll rows rest))

/-- Several columns brought to the height of the tallest. -/
def align (columns : List Column) : Except Error (List Column) :=
  broadcastAll ((columns.map length).foldl max 0) columns

/-- A column as a condition on `rows` rows. -/
def asPredicate (c : Column) (rows : Nat) : Except Error (List Cell) := do
  let c ← c.broadcast rows
  if c.type = .boolean then .ok c.cells
  else .error (.type ("predicate must evaluate to boolean, got " ++ c.type.describe))

/-- The rows where a mask holds. The mask may not be longer than the column. -/
def filter (c : Column) (mask : List Cell) : Except Error Column :=
  if c.length < mask.length then .error (.compute .invalidArgument)
  else .ok (c.keep (mask.map Cell.isTrue))

end Column

namespace Expr

def findColumn (b : Batch) (name : String) : Except Error Column :=
  match b.column? name with
  | some c => .ok c
  | none => .error (.schema ("column not found: " ++ name))

mutual

def evaluate (b : Batch) : Expr → Except Error Column
  | column name => findColumn b name
  | literal v type => Literal.column v type b.rows
  | named e _ => evaluate b e
  | cast e type => do (← evaluate b e).cast (.ofLogical type)
  | binary left op right => do
    let l ← evaluate b left
    let r ← evaluate b right
    op.apply l r
  | unary op e => do op.apply (← evaluate b e)
  | choose predicate thenExpr otherwise => do
    let mask ← (← evaluate b predicate).asPredicate b.rows
    let l ← evaluate b thenExpr
    let r ← evaluate b otherwise
    Column.select (mask.map Cell.boolContent) l r
  | fillNull e fill => do
    let c ← evaluate b e
    c.orElse (← evaluate b fill)
  | fillNan e fill => do
    let c ← evaluate b e
    if c.type = .float64 then c.fillNan (← evaluate b fill) else .ok c
  | isIn e options => do
    let c ← evaluate b e
    evaluateIn b c none options
  | between e low high => do
    let c ← evaluate b e
    let l ← evaluate b low
    let h ← evaluate b high
    let above ← BinaryOp.apply (.compare .greaterEqual) c l
    let below ← BinaryOp.apply (.compare .lessEqual) c h
    BinaryOp.apply (.logic .and) above below
  | coalesce items => do Column.coalesce (← evaluateList b items)
  | least items => do Column.horizontal .less (← evaluateList b items)
  | greatest items => do Column.horizontal .greater (← evaluateList b items)
  | call f items => do f.apply (← Column.align (← evaluateList b items))
  | reduce f e none => do f.apply (← evaluate b e)
  | reduce f e (some filter) => do
    let c ← evaluate b e
    let mask ← (← evaluate b filter).asPredicate b.rows
    f.apply (← c.filter mask)
  | countRows none => .ok (Reduction.oneInt b.rows)
  | countRows (some filter) => do
    let mask ← (← evaluate b filter).asPredicate b.rows
    .ok (Reduction.oneInt (mask.countP Cell.isTrue))

def evaluateList (b : Batch) : List Expr → Except Error (List Column)
  | [] => .ok []
  | e :: rest => do
    let here ← evaluate b e
    .ok (here :: (← evaluateList b rest))

/-- Whether the value equals one of the options; `found` says so of the options before. -/
def evaluateIn (b : Batch) (c : Column) (found : Option Column) :
    List Expr → Except Error Column
  | [] => .ok (found.getD (.constant .boolean (.bool false) c.length))
  | e :: rest => do
    let value ← evaluate b e
    let matched ← BinaryOp.apply (.compare .equal) c value
    match found with
    | some found => evaluateIn b c (some (← BinaryOp.apply (.logic .or) found matched)) rest
    | none => evaluateIn b c (some matched) rest

end

/-- The rows where a condition holds; none where it is missing. -/
def evaluatePredicate (b : Batch) (e : Expr) : Except Error (List (Option Bool)) := do
  .ok ((← (← evaluate b e).asPredicate b.rows).map Cell.bool?)

end Expr

end TypedQuery
