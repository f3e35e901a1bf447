import TypedQuery.Expr.Evaluate

/-!
# Choosing rows and columns

The steps of a plan that work on one batch without moving rows.
-/

namespace TypedQuery.Batch

/-- The rows where a condition is true. -/
def filterBy (b : Batch) (predicate : Expr) : Except Error Batch := do
  .ok (b.keep ((← predicate.evaluatePredicate b).map (· = some true)))

/-! ## Columns -/

def duplicateColumn (name : String) : Error := .schema ("duplicate output column: " ++ name)

/-- A computed column at the given height. -/
def compute (b : Batch) (rows : Nat) (e : Expr) : Except Error Column := do
  (← e.evaluate b).broadcast rows

/-- Computed columns as high as the batch. -/
def computeKeys (b : Batch) : List Expr → Except Error (List Column)
  | [] => .ok []
  | e :: rest => do
    let here ← b.compute b.rows e
    .ok (here :: (← computeKeys b rest))

/-- Computed columns with their names, each name once. -/
def computeAll (b : Batch) (rows : Nat) (seen : List String) :
    List Expr → Except Error (List (String × Column))
  | [] => .ok []
  | e :: rest =>
    let name := e.outputName
    if seen.contains name then .error (duplicateColumn name)
    else do
      let here ← b.compute rows e
      .ok ((name, here) :: (← computeAll b rows (name :: seen) rest))

/-- A batch of computed columns. It has a single row if all of them are reductions. -/
def select (b : Batch) (items : List Expr) : Except Error Batch := do
  let rows := if !items.isEmpty && items.all Expr.reduces then 1 else b.rows
  .ok ⟨rows, ← b.computeAll rows [] items⟩

/-- Puts a column where its name is, or at the end. -/
def put (columns : List (String × Column)) (name : String) (c : Column) :
    List (String × Column) :=
  match columns with
  | [] => [(name, c)]
  | (other, d) :: rest => if other = name then (other, c) :: rest
    else (other, d) :: put rest name c

/-- The batch with further columns. All of them are computed from the columns
that were there before. -/
def extend (b : Batch) (items : List Expr) : Except Error Batch := do
  let computed ← b.computeAll b.rows [] items
  .ok { b with
    columns := computed.foldl (fun columns (name, c) => put columns name c) b.columns }

/-! ## Rows -/

/-- Rows from an offset on, as many as there are. -/
def slice (b : Batch) (offset : Nat) (length : Option Nat) : Batch :=
  let start := min offset b.rows
  let count := min (length.getD b.rows) (b.rows - start)
  ⟨count, b.columns.map fun (name, c) => (name, ⟨c.type, (c.cells.drop start).take count⟩)⟩

def findColumns (b : Batch) : List String → Except Error (List Column)
  | [] => .ok []
  | name :: rest => do
    let here ← Expr.findColumn b name
    .ok (here :: (← findColumns b rest))

/-- The rows that are filled in all of the given columns. -/
def dropNulls (b : Batch) (names : Option (List String)) : Except Error Batch := do
  let columns ← match names with
    | some names => b.findColumns names
    | none => .ok (b.columns.map (·.2))
  let mask := (columns.map Column.filled).foldl (List.zipWith and)
    (List.replicate b.rows true)
  .ok (b.keep mask)

/-! ## Rows as lists of cells -/

/-- The cells of each row of some columns, without what is left in missing ones. -/
def tuples (rows : Nat) (columns : List Column) : List (List Cell) :=
  columns.foldr (fun c rest => List.zipWith (· :: ·) (c.cells.map Cell.bare) rest)
    (List.replicate rows [])

/-- Positions of the rows that are not among the rows before them. -/
def firstsFrom (position : Nat) (seen : List (List Cell)) : List (List Cell) → List Nat
  | [] => []
  | row :: rest =>
    if seen.contains row then firstsFrom (position + 1) seen rest
    else position :: firstsFrom (position + 1) (row :: seen) rest

/-- Every row once, where it first stands. Without columns all rows are the same. The limit
of 32 bits on the positions that rows are taken by is left out. -/
def unique (b : Batch) : Batch :=
  if b.columns.isEmpty then b.slice 0 (some 1)
  else
    let firsts := firstsFrom 0 [] (tuples b.rows (b.columns.map (·.2)))
    if firsts.length = b.rows then b else b.gather (firsts.map some)

/-!
## Sorting

Rows are ordered by their first key, where it is the same by the second, and so on;
rows with equal keys stay in their order. Nulls come first in ascending order and
last in descending order.
-/

/-- Whether there is a null type in a type, at any depth. -/
def holdsNullType : Physical → Bool
  | .null => true
  | .list element => holdsNullType element
  | _ => false

/-- Not all types can be sorted by. -/
def checkSortable : List Column → Except Error Unit
  | [c] => if c.type.isOrdered then .ok () else .error (.compute .unsupported)
  | columns => if columns.any (holdsNullType ·.type) then
    .error (.compute .invalidArgument) else .ok ()

def compareKeys : List Bool → List Cell → List Cell → Ordering
  | d :: ds, a :: as, c :: cs =>
    match (if d then (Cell.order true a c).swap else Cell.order true a c) with
    | .eq => compareKeys ds as cs
    | o => o
  | _, _, _ => .eq

/-- The positions of rows in the order of their keys. -/
def sortedPositions (descending : List Bool) (keys : List (List Cell)) : List Nat :=
  (keys.zipIdx.mergeSort fun a b => compareKeys descending a.1 b.1 ≠ .gt).map (·.2)

def sort (b : Batch) (keys : List Expr) (descending : List Bool) : Except Error Batch := do
  if keys.length ≠ descending.length then
    .error (.internal
      ("sort got " ++ toString keys.length ++ " keys but " ++ toString descending.length
      ++ " directions"))
  else if keys.isEmpty || b.rows < 2 then .ok b
  else do
    let columns ← b.computeKeys keys
    checkSortable columns
    .ok (b.gather ((sortedPositions descending (tuples b.rows columns)).map some))

end TypedQuery.Batch
