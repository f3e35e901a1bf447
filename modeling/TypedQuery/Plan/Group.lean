import TypedQuery.Plan.Select

/-!
# Grouping

Rows with equal keys form a group, and null equals null there. Groups come in the order in
which they first appear. Without keys all rows are one group, even if there are none. As in
joins, positions are numbers of any size: the limit of 32 bits on the positions that rows
are taken by is left out.
-/

namespace TypedQuery.Batch

/-- Adds a row to the group with its key, or starts one. -/
def addToGroup (groups : List (List Cell × List Nat)) (key : List Cell) (position : Nat) :
    List (List Cell × List Nat) :=
  match groups with
  | [] => [(key, [position])]
  | (k, members) :: rest =>
    if k = key then (k, members ++ [position]) :: rest
      else (k, members) :: addToGroup rest key position

/-- The positions of the rows of each group. -/
def groupRows (keys : List (List Cell)) : List (List Nat) :=
  (keys.zipIdx.foldl
    (fun groups (key, position) => addToGroup groups key position) []).map (·.2)

/-- The first row of what an expression gives for a group, null if it gives none. -/
def reduceGroup (group : Batch) (e : Expr) : Except Error Column := do
  let c ← e.evaluate group
  .ok ⟨c.type, [c.cells.head?.getD .null]⟩

def reduceAll (group : Batch) : List Expr → Except Error (List Column)
  | [] => .ok []
  | e :: rest => do
    let here ← reduceGroup group e
    .ok (here :: (← reduceAll group rest))

def reduceGroups (b : Batch) (metrics : List Expr) :
    List (List Nat) → Except Error (List (List Column))
  | [] => .ok []
  | members :: rest => do
    let here ← reduceAll (b.gather (members.map some)) metrics
    .ok (here :: (← reduceGroups b metrics rest))

def stackAll : List (List Column) → Except Error (List Column)
  | [] => .ok []
  | parts :: rest => do
    let here ← stack parts
    .ok (here :: (← stackAll rest))

/-- The columns of the metrics. Where there is no group, an empty batch tells their types. -/
def metricColumns (b : Batch) (metrics : List Expr) (groups : List (List Nat)) :
    Except Error (List Column) :=
  if groups.isEmpty then do
    .ok ((← reduceAll (b.slice 0 (some 0)) metrics).map fun c => ⟨c.type, []⟩)
  else do
    let rows ← b.reduceGroups metrics groups
    stackAll ((List.range metrics.length).map fun i => rows.filterMap (·[i]?))

def checkNames (seen : List String) : List String → Except Error Unit
  | [] => .ok ()
  | name :: rest => if seen.contains name then .error (duplicateColumn name)
    else checkNames (name :: seen) rest

def aggregate (b : Batch) (keys metrics : List Expr) : Except Error Batch := do
  let names := (keys ++ metrics).map Expr.outputName
  checkNames [] names
  if keys.isEmpty then .ok ⟨1, names.zip (← b.reduceAll metrics)⟩
  else
    let keyColumns ← b.computeKeys keys
    let groups := groupRows (tuples b.rows keyColumns)
    let firsts := groups.map List.head?
    let columns ← b.metricColumns metrics groups
    .ok ⟨groups.length, names.zip (keyColumns.map (·.gather firsts) ++ columns)⟩

end TypedQuery.Batch
