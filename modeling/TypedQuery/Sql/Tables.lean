import TypedQuery.Node.Rules
import TypedQuery.Sql.Rule

/-!
# Tables in SQL

Every table is a complete `SELECT`. A table that another one is made of stands in its
`FROM` clause, by name or as a subquery with a scope of its own.
-/

namespace TypedQuery.Sql

/-! ## The clauses of a SELECT -/

structure Select where
  distinct : Bool := false
  items : List String := []
  source : String
  filters : List String := []
  groupBy : List String := []
  orderBy : List String := []
  limit : Option Int := none
  offset : Int := 0

namespace Select

/-- A clause with a list; without entries there is no clause. -/
def clause (keyword separator : String) (entries : List String) : String :=
  if entries.isEmpty then "" else " " ++ keyword ++ " " ++ separator.intercalate entries

def render (s : Select) : String :=
  "SELECT " ++ (if s.distinct then "DISTINCT " else "") ++ ", ".intercalate s.items
    ++ " FROM " ++ s.source
    ++ clause "WHERE" " AND " s.filters
    ++ clause "GROUP BY" ", " s.groupBy
    ++ clause "ORDER BY" ", " s.orderBy
    ++ (match s.limit with
      | some n => " LIMIT " ++ toString n
      | none => "")
    ++ (if s.offset = 0 then "" else " OFFSET " ++ toString s.offset)

end Select

open Emission

/-! ## Items -/

def update (f : Statement → Statement) : Writing Unit := do setTarget (f (← target))

/-- A table as an item of the `FROM` clause, with its label. The tables inside a
subquery stay reachable through its label, except behind an aggregation, which has
nothing but its keys and metrics. -/
def fromItem (emit : Node → Writing String) (table : Node) : Writing (String × String) := do
  if table.kind = .databaseTable then
    let name ← table.stringField "name"
    let quotedName := (← target).quote name
    let label ← change fun s => s.bind table
    return (quotedName ++ " " ++ label, label)
  else
    update Statement.openScope
    let subquery ← attempt (isolated (emit table))
    let tables ← change fun s => s.closeScope
    let subquery ← subquery
    let label ← change fun s => s.bind table
    if table.kind ≠ .aggregation then
      update fun s => s.bringIn tables label
    return ("(" ++ subquery ++ ") " ++ label, label)

/-- A value as an item of a list, under its name. -/
def selectItem (emit : Node → Writing String) (n : Node) : Writing String := do
  let text ← emit n
  let name ← n.name
  let s ← target
  let keepsName ← if n.kind = .tableColumn then do
      let table ← n.child "table"
      let column ← n.stringField "name"
      pure (s.outputName table column == name)
    else pure false
  return if keepsName then text else text ++ " AS " ++ s.quote name

def expandColumn (s : Statement) (table : Node) (column : ColumnInfo) :
    Except Error String := do
  let item ← s.column table column.name
  .ok (if s.outputName table column.name = column.name then item
    else item ++ " AS " ++ s.quote column.name)

def expandColumns (s : Statement) (table : Node) : Except Error (List String) := do
  (← table.outputSchema).columns.mapM (expandColumn s table)

/-- Every column of a table as items, under the names of its schema. -/
def expand (table : Node) : Writing (List String) := do
  let s ← target
  match s.scope.reach? table with
  | some (.through label true []) => return [label ++ ".*"]
  | some _ => expandColumns s table
  | none => throw (.inexpressible "a selection may only expand tables of its own source")

def selectionItems (emit : Node → Writing String) : List Node → Writing (List String)
  | [] => return []
  | n :: rest => do
    let items ← if n.kind.isTable then expand n else do pure [← selectItem emit n]
    let more ← selectionItems emit rest
    return items ++ more

/-! ## Stored rows -/

def cell (s : Statement) (column : ColumnInfo) (value : Option Value) :
    Except Error String := do
  let text ← match value with
    | some v => literal v
    | none => .ok "NULL"
  let name ← typeName column.dataType
  .ok ("CAST(" ++ text ++ " AS " ++ name ++ ") AS " ++ s.quote column.name)

def cells (s : Statement) :
    List ColumnInfo → List (Option Value) → Except Error (List String)
  | column :: columns, value :: values => do
    let text ← cell s column value
    let texts ← cells s columns values
    .ok (text :: texts)
  | _, _ => .ok []

def rowText (s : Statement) (columns : List ColumnInfo) (values : List (Option Value)) :
    Except Error String := do
  .ok ("SELECT " ++ ", ".intercalate (← cells s columns values))

/-- Stored rows are selected one by one. Without rows, nulls are selected and then dropped.
-/
def storedRows (s : Statement) (n : Node) : Except Error String := do
  let schema ← n.outputSchema
  match (← n.field "data").seq? with
  | none => .error (.internal "InMemoryTable data is not a sequence")
  | some [] =>
    do .ok ((← rowText s schema.columns (schema.columns.map fun _ => none)) ++ " LIMIT 0")
  | some rows => do
    let texts ← rows.mapM fun row =>
      rowText s schema.columns ((row.seq?.getD []).map Arg.value?)
    .ok (" UNION ALL ".intercalate texts)

/-! ## Rules -/

def databaseTableRule : SqlRule := fun _ n => do
  let s ← target
  let name ← n.stringField "name"
  return "SELECT * FROM " ++ s.quote name

def inMemoryTableRule : SqlRule := fun _ n => do
  storedRows (← target) n

def sortKeyRule : SqlRule := fun emit n => do
  let key ← field emit n "expr"
  let ascending ← n.boolField "ascending"
  return key ++ (if ascending then " ASC" else " DESC")

def selectionRule : SqlRule := fun emit n => do
  let table ← n.child "table"
  let (source, label) ← fromItem emit table
  let selected ← n.childList "selections"
  let items ← selectionItems emit selected
  let filters ← sequence emit n "predicates"
  let orderBy ← sequence emit n "sort_keys"
  if items.isEmpty then
    return Select.render { source, items := [label ++ ".*"], filters, orderBy }
  else
    update Statement.forgetRenames
    return Select.render { source, items, filters, orderBy }

def valueItems (emit : Node → Writing String) : List Node → Writing (List String)
  | [] => return []
  | n :: rest => do
    let item ← selectItem emit n
    let items ← valueItems emit rest
    return item :: items

def aggregationRule : SqlRule := fun emit n => do
  let table ← n.child "table"
  let (source, _) ← fromItem emit table
  let keys ← n.childList "by"
  let keyItems ← valueItems emit keys
  let metrics ← n.childList "metrics"
  let metricItems ← valueItems emit metrics
  let filters ← sequence emit n "predicates"
  let groupBy := (List.range keys.length).map fun i => toString (i + 1)
  return Select.render { source, items := keyItems ++ metricItems, filters, groupBy }

def limitRule : SqlRule := fun emit n => do
  let table ← n.child "table"
  let (source, label) ← fromItem emit table
  let count ← n.intField "n"
  let offset ← n.intField "offset"
  return Select.render
    { source, items := [label ++ ".*"], limit := some count.toInt, offset := offset.toInt }

def distinctRule : SqlRule := fun emit n => do
  let table ← n.child "table"
  let (source, label) ← fromItem emit table
  return Select.render { distinct := true, source, items := [label ++ ".*"] }

def dropNullsRule : SqlRule := fun emit n => do
  let table ← n.child "table"
  let (source, label) ← fromItem emit table
  let s ← target
  let subset ← match n.get? "subset" with
    | some (.seq _) => sequence emit n "subset"
    | _ => do
      let schema ← table.outputSchema
      pure (schema.names.map (s.qualified label))
  let items := [label ++ ".*"]
  if subset.isEmpty then
    return Select.render { source, items }
  else
    let how ← n.stringField "how"
    let checks := subset.map (· ++ " IS NOT NULL")
    let filter :=
      if how = "all" then "(" ++ " OR ".intercalate checks ++ ")"
        else " AND ".intercalate checks
    return Select.render { source, items, filters := [filter] }

/-- What the nulls of a column are replaced by: the entry of its name, or a single value
that its type can be compared with. -/
def replacementFor (replacements : Arg) (column : ColumnInfo) : Option Node :=
  match replacements with
  | .map entries => (entries.find? (·.1 == column.name)).bind (·.2.node?)
  | .node value => if (value.dataType?.map (·.isComparableWith column.dataType)).getD false
    then some value else none
  | _ => none

def filledItems (emit : Node → Writing String) (label : String) (replacements : Arg) :
    List ColumnInfo → Writing (List String)
  | [] => return []
  | column :: rest => do
    let s ← target
    let current := s.qualified label column.name
    let item ← match replacementFor replacements column with
      | some value => do
        let text ← emit value
        pure ("coalesce(" ++ current ++ ", " ++ text ++ ") AS " ++ s.quote column.name)
      | none => pure current
    let items ← filledItems emit label replacements rest
    return item :: items

/-- The first name to be filled that is not a column. -/
def unknownColumn? (schema : Schema) : Arg → Option String
  | .map entries => (entries.find? fun (name, _) => !schema.contains name).map (·.1)
  | _ => none

def fillNullsRule : SqlRule := fun emit n => do
  let table ← n.child "table"
  let schema ← table.outputSchema
  let replacements ← n.field "replacements"
  match unknownColumn? schema replacements with
  | some name =>
    throw (.inexpressible
      ("cannot fill column " ++ Text.quote name ++ ": not in " ++ schema.render))
  | none =>
    let (source, label) ← fromItem emit table
    let items ← filledItems emit label replacements schema.columns
    return Select.render { source, items }

/-! ## Joins -/

/-- The columns of the right side that get another name. -/
def rightRenames (left right : Schema) : Renames :=
  (right.columns.filter fun column => left.contains column.name).foldl
    (fun renames column => renames.insert column.name (column.name ++ Rules.rightMark)) []

def rightItem (s : Statement) (label : String) (left : Schema)
    (column : ColumnInfo) : String :=
  let item := s.qualified label column.name
  if left.contains column.name then item ++ " AS "
    ++ s.quote (column.name ++ Rules.rightMark) else item

def joinSource (kind : NodeKind) (keyword left right : String)
    (predicates : List String) : String :=
  if predicates.isEmpty then
    if kind = .innerJoin then left ++ " CROSS JOIN " ++ right
    else left ++ " " ++ keyword ++ " " ++ right ++ " ON TRUE"
  else left ++ " " ++ keyword ++ " " ++ right ++ " ON " ++ " AND ".intercalate predicates

def joinRule (kind : NodeKind) (keyword : String) : SqlRule := fun emit n => do
  let left ← n.child "left"
  let right ← n.child "right"
  let (leftSource, leftLabel) ← fromItem emit left
  let (rightSource, rightLabel) ← fromItem emit right
  let predicates ← sequence emit n "predicates"
  let source := joinSource kind keyword leftSource rightSource predicates
  if kind = .leftSemiJoin || kind = .leftAntiJoin then
    return Select.render { source, items := [leftLabel ++ ".*"] }
  else
    let leftSchema ← left.outputSchema
    let rightSchema ← right.outputSchema
    let s ← target
    let items := leftSchema.names.map (s.qualified leftLabel)
      ++ rightSchema.columns.map (rightItem s rightLabel leftSchema)
    update fun s => s.rename rightLabel (rightRenames leftSchema rightSchema)
    return Select.render { source, items }

def tableRules : List (NodeKind × SqlRule) :=
  [(.databaseTable, databaseTableRule), (.inMemoryTable, inMemoryTableRule),
    (.sortKey, sortKeyRule), (.selection, selectionRule), (.aggregation, aggregationRule),
    (.limit, limitRule), (.distinct, distinctRule), (.dropNa, dropNullsRule),
    (.fillNa, fillNullsRule), (.innerJoin, joinRule .innerJoin "INNER JOIN"),
    (.leftJoin, joinRule .leftJoin "LEFT OUTER JOIN"),
    (.rightJoin, joinRule .rightJoin "RIGHT OUTER JOIN"),
    (.outerJoin, joinRule .outerJoin "FULL OUTER JOIN"),
    (.leftSemiJoin, joinRule .leftSemiJoin "LEFT SEMI JOIN"),
    (.leftAntiJoin, joinRule .leftAntiJoin "LEFT ANTI JOIN")]

end TypedQuery.Sql
