import TypedQuery.Columnar.Literal
import TypedQuery.Engine.Rule
import TypedQuery.Node.Rules

/-!
# Tables on the engine

Every table becomes a plan. Joins are on equalities between the two sides only. A right
join is a left join with the sides swapped, whose columns are then put back in the
order of the right join.
-/

namespace TypedQuery.Engine

/-! ## Parts -/

def plan (emit : Node → Lowering Lowered) (n : Node) (field : String) : Lowering Plan := do
  let output ← Emission.field emit n field
  output.toPlan

/-- A value under the name of the column that it makes. -/
def named (emit : Node → Lowering Lowered) (n : Node) : Lowering Expr := do
  let e ← exprOf emit n
  if n.kind = .renamed ∨ n.kind = .tableColumn then return e
  else return .named e (← n.name)

def namedEach (emit : Node → Lowering Lowered) : List Node → Lowering (List Expr)
  | [] => return []
  | n :: rest => do
    let e ← named emit n
    let es ← namedEach emit rest
    return e :: es

def conjunction : List Expr → Option Expr
  | [] => none
  | e :: rest => some (rest.foldl Expr.both e)

def filtered (p : Plan) (predicates : List Expr) : Plan :=
  match conjunction predicates with
  | some predicate => .filter p predicate
  | none => p

/-- A count that a field holds. -/
def countField (n : Node) (field : String) : Except Error Nat :=
  do countOf n field (← n.intField field)

/-! ## Tables of rows -/

def rowOf? : Arg → Option (List Value)
  | .seq cells => cells.mapM Arg.value?
  | _ => none

def rowsOf (n : Node) : Except Error (List (List Value)) := do
  match ((← n.field "data").seq?).bind (·.mapM rowOf?) with
  | some rows => .ok rows
  | none => .error (.internal "InMemoryTable rows must hold plain values")

def givenRowsRule : EngineRule := fun _ n => do
  let batch ← Batch.ofRows (← n.outputSchema) (← rowsOf n)
  return .plan (.rows (← n.stringField "name") batch)

/-! ## Selections and aggregations -/

def sortKeys (emit : Node → Lowering Lowered) : List Node → Lowering (List (Expr × Bool))
  | [] => return []
  | key :: rest => do
    let e ← expr emit key "expr"
    let descending := !(← key.boolField "ascending")
    let keys ← sortKeys emit rest
    return (e, descending) :: keys

/-- The items of a selection; a table stands for all its columns. -/
def selected (emit : Node → Lowering Lowered) : List Node → Lowering (List Expr)
  | [] => return []
  | n :: rest => do
    let items ← if n.kind.isTable then pure ((← n.outputSchema).names.map Expr.column)
      else do pure [← named emit n]
    return items ++ (← selected emit rest)

def selectionRule : EngineRule := fun emit n => do
  let input ← plan emit n "table"
  let kept := filtered input (← exprs emit n "predicates")
  let keys ← n.childList "sort_keys"
  let keys ← sortKeys emit keys
  let sorted := if keys.isEmpty then kept else .sort kept (keys.map (·.1)) (keys.map (·.2))
  let selections ← n.childList "selections"
  if selections.isEmpty then return .plan sorted
  else return .plan (.select sorted (← selected emit selections))

def aggregationRule : EngineRule := fun emit n => do
  let input ← plan emit n "table"
  let kept := filtered input (← exprs emit n "predicates")
  let keys ← namedEach emit (← n.childList "by")
  let metrics ← namedEach emit (← n.childList "metrics")
  return .plan (.aggregate kept keys metrics)

def limitRule : EngineRule := fun emit n => do
  let count ← countField n "n"
  let offset ← countField n "offset"
  return .plan (.slice (← plan emit n "table") offset (some count))

/-! ## Nulls -/

def nodeNames : List Node → Except Error (List String)
  | [] => .ok []
  | n :: rest => do
    let name ← n.name
    let names ← nodeNames rest
    .ok (name :: names)

def dropNullsRule : EngineRule := fun emit n => do
  if (← n.stringField "how") ≠ "any" then throw (unsupported n "how")
  let input ← plan emit n "table"
  if ((n.get? "subset").getD .none).isNone then return .plan (.dropNulls input none)
  else
    let names ← nodeNames (← n.childList "subset")
    return .plan (if names.isEmpty then input else .dropNulls input (some names))

/-- The constant that takes the place of missing cells. -/
def replacement (n : Node) (a : Arg) : Except Error Value :=
  let value? := match a with
    | .node child => child.literal?
    | .value v => some v
    | _ => none
  match value? with
  | some v => .ok v
  | none => .error (unsupported n "replacements")

def namedFills (n : Node) (s : Schema) :
    List (String × Arg) → Except Error (List (ColumnInfo × Value))
  | [] => .ok []
  | (name, a) :: rest =>
    match s.column? name with
    | none => .error
      (.inexpressible ("cannot fill column " ++ Text.quote name ++ ": not in " ++ s.render))
    | some column => do
      let v ← replacement n a
      let fills ← namedFills n s rest
      .ok ((column, v) :: fills)

/-- What fills which columns; a single constant fills every column that it can be compared
with. -/
def fills (n : Node) (s : Schema) : Arg → Except Error (List (ColumnInfo × Value))
  | .map entries => namedFills n s entries
  | a => do
    let v ← replacement n a
    .ok ((s.columns.filter fun column =>
      v.dataType.isComparableWith column.dataType).map (·, v))

/-- A column with a constant in place of what is missing, under its name and with its type.
-/
def filledColumn (column : ColumnInfo) (v : Value) : Expr :=
  let fill := Expr.constant v
  .named (.cast (.fillNull (.fillNan (.column column.name) fill) fill) column.dataType)
    column.name

def fillNullsRule : EngineRule := fun emit n => do
  let table ← n.child "table"
  let fills ← fills n (← table.outputSchema) (← n.field "replacements")
  let input ← plan emit n "table"
  return .plan (if fills.isEmpty then input
    else .extend input (fills.map fun (column, v) => filledColumn column v))

/-! ## Joins -/

end TypedQuery.Engine

namespace TypedQuery

mutual

/-- Whether all columns that a value reads belong to tables of one sort. -/
def Node.readsOnly (owner : Node → Bool) : Node → Bool
  | .mk kind fields attributes =>
    if kind = .tableColumn then ((Node.mk kind fields attributes).child? "table").any owner
    else Arg.readsOnlyFields owner fields

def Arg.readsOnly (owner : Node → Bool) : Arg → Bool
  | .node n => n.readsOnly owner
  | .seq items => Arg.readsOnlyItems owner items
  | .map entries => Arg.readsOnlyFields owner entries
  | _ => true

def Arg.readsOnlyItems (owner : Node → Bool) : List Arg → Bool
  | [] => true
  | a :: rest => a.readsOnly owner && Arg.readsOnlyItems owner rest

def Arg.readsOnlyFields (owner : Node → Bool) : List (String × Arg) → Bool
  | [] => true
  | (_, a) :: rest => a.readsOnly owner && Arg.readsOnlyFields owner rest

end

end TypedQuery

namespace TypedQuery.Engine

/-- The two sides of an equality, that of the left table first. -/
def joinSides (left right predicate : Node) : Except Error (Node × Node) := do
  if predicate.kind ≠ .equals then
    .error (.inexpressible
      ("only equality join predicates are supported, got " ++ predicate.kind.name))
  else
    let a ← predicate.child "left"
    let b ← predicate.child "right"
    if a.readsOnly (· == left) && b.readsOnly (· == right) then .ok (a, b)
    else if a.readsOnly (· == right) && b.readsOnly (· == left) then .ok (b, a)
    else .error (.inexpressible
      "each side of a join predicate must read from one join input")

def joinKeyPairs (emit : Node → Lowering Lowered) (left right : Node) :
    List Node → Lowering (List (Expr × Expr))
  | [] => return []
  | predicate :: rest => do
    let (l, r) ← joinSides left right predicate
    let leftKey ← exprOf emit l
    let rightKey ← exprOf emit r
    let keys ← joinKeyPairs emit left right rest
    return (leftKey, rightKey) :: keys

def joinKeys (emit : Node → Lowering Lowered) (n : Node) :
    Lowering (List (Expr × Expr)) := do
  let left ← n.child "left"
  let right ← n.child "right"
  let predicates ← n.childList "predicates"
  if predicates.isEmpty then
    throw (.inexpressible (n.kind.name ++ " needs at least one equality predicate"))
  joinKeyPairs emit left right predicates

def joinRule (kind : JoinKind) : EngineRule := fun emit n => do
  let left ← plan emit n "left"
  let right ← plan emit n "right"
  let keys ← joinKeys emit n
  return .plan (.join left right (keys.map (·.1)) (keys.map (·.2)) kind Rules.rightMark)

def marked (name : String) : String := name ++ Rules.rightMark

/-- The columns of a right join, found in the batch of the swapped left join. -/
def rightJoinLayout (left right : Schema) : List Expr :=
  (left.names.map fun name => if right.contains name then
    .named (.column (marked name)) name else .column name)
    ++ right.names.map fun name =>
      if left.contains name then .named (.column name) (marked name) else .column name

def rightJoinRule : EngineRule := fun emit n => do
  let leftSchema ← (← n.child "left").outputSchema
  let rightSchema ← (← n.child "right").outputSchema
  let left ← plan emit n "left"
  let right ← plan emit n "right"
  let keys ← joinKeys emit n
  let swapped := Plan.join right left (keys.map (·.2)) (keys.map (·.1)) .left Rules.rightMark
  return .plan (.select swapped (rightJoinLayout leftSchema rightSchema))

/-! ## Rules -/

def tableRules : List (NodeKind × EngineRule) :=
  [(.databaseTable, fun _ n => do return .plan (.scan (← n.stringField "name"))),
    (.inMemoryTable, givenRowsRule), (.selection, selectionRule),
    (.aggregation, aggregationRule), (.limit, limitRule),
    (.distinct, fun emit n => return .plan (.unique (← plan emit n "table"))),
    (.dropNa, dropNullsRule), (.fillNa, fillNullsRule), (.innerJoin, joinRule .inner),
    (.leftJoin, joinRule .left), (.outerJoin, joinRule .outer),
    (.leftSemiJoin, joinRule .semi), (.leftAntiJoin, joinRule .anti),
    (.rightJoin, rightJoinRule)]

end TypedQuery.Engine
