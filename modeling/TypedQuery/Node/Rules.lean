import TypedQuery.DataType.Basic
import TypedQuery.Node.Access

/-!
# What nodes derive from their fields

The rules for the type and the shape of a value and for the schema of a table, over the
fields validated so far.
-/

namespace TypedQuery.Rules

/-! ## Types and shapes -/

/-- The type of the value in a field. -/
def typeIn (field : String) (bound : Fields) : Except Error DataType :=
  match (Fields.node? bound field).bind Node.dataType? with
  | some t => .ok t
  | none => .error (.internal ("field " ++ field ++ " has no output type"))

/-- The shape of the value in a field. -/
def shapeIn (field : String) (bound : Fields) : Except Error Shape :=
  match (Fields.node? bound field).bind Node.shape? with
  | some s => .ok s
  | none => .error (.internal ("field " ++ field ++ " has no output shape"))

def widerShape (left right : String) (bound : Fields) : Except Error Shape := do
  .ok (Shape.join (← shapeIn left bound) (← shapeIn right bound))

/-- The widest shape of the values in all fields. -/
def widestShape (bound : Fields) : Shape :=
  Shape.widest (((Fields.nodes bound).filter (·.kind.isValue)).filterMap Node.shape?)

/-- The nodes held by a field. -/
def nodesIn (field : String) (bound : Fields) : List Node :=
  ((Fields.field? bound field).map Arg.nodes).getD []

/-- The common type of the values in some fields. -/
def commonType (fields : List String) (bound : Fields) : Except Error DataType :=
  let types := (fields.flatMap fun field => nodesIn field bound).filterMap Node.dataType?
  match DataType.highestPrecedence types with
  | some t => .ok t
  | none => .error
    (.type ("no common type for " ++ ", ".intercalate (types.map DataType.name)))

/-- The type that a field holds. -/
def typeHeld (field : String) (bound : Fields) : DataType :=
  ((Fields.field? bound field).bind Arg.type?).getD .null

/-- The type of the column named by `name` in the table in `table`. -/
def columnType (bound : Fields) : DataType :=
  let name := ((Fields.field? bound "name").bind Arg.string?).getD ""
  (((Fields.node? bound "table").bind Node.schema?).bind (·.dataType? name)).getD .null

def arrayType (bound : Fields) : Except Error DataType :=
  if (nodesIn "cols" bound).isEmpty then
    .error (.validation "ArrayColumn" "cols" "an array column needs at least one element")
  else (commonType ["cols"] bound).map .array

/-- Sums of integers are 64 bits wide. -/
def sumType (bound : Fields) : Except Error DataType := do
  match ← typeIn "arg" bound with
  | .float64 => .ok .float64
  | _ => .ok .int64

/-- Rounding to a number of digits keeps the type; rounding to whole numbers gives
integers. -/
def roundType (bound : Fields) : Except Error DataType :=
  match Fields.node? bound "digits" with
  | some _ => typeIn "arg" bound
  | none => .ok .int64

def unitText (bound : Fields) : String :=
  ((Fields.field? bound "unit").bind Arg.string?).getD ""

def unixTimestampType (bound : Fields) : Except Error DataType :=
  match TimeUnit.ofCode? (unitText bound) with
  | some unit => .ok (.timestamp unit)
  | none => .error (.value "unknown unix timestamp unit")

def intervalType (bound : Fields) : Except Error DataType :=
  match IntervalUnit.ofCode? (unitText bound) with
  | some unit => .ok (.interval unit)
  | none => .error (.value "unknown interval unit")

/-! ## Schemas -/

/-- What is added to the name of a right-hand column that the left side of a join has too. -/
def rightMark : String := "_right"

def schemaIn (field : String) (bound : Fields) : Except Error Schema :=
  match (Fields.node? bound field).bind Node.schema? with
  | some s => .ok s
  | none => .error (.internal ("field " ++ field ++ " is not a relation"))

/-- The schema that a table of the given kind is declared with. -/
def declaredSchema (kind : NodeKind) (bound : Fields) : Except Error Schema :=
  match (Fields.field? bound "schema").bind Arg.schema? with
  | some s => .ok s
  | none => .error (.internal (kind.name ++ " without schema"))

/-- Adds columns with names that are not taken. -/
def pushUnique (owner field : String) (s : Schema) : List ColumnInfo → Except Error Schema
  | [] => .ok s
  | column :: rest =>
    if s.contains column.name then
      .error (.validation owner field ("duplicate column name " ++ Text.quote column.name))
    else pushUnique owner field (s.push column) rest

/-- The column that a value makes. -/
def valueColumn (n : Node) : Except Error ColumnInfo := do
  .ok ⟨← n.name, ← n.outputType, true⟩

def pushSelected (s : Schema) : List Node → Except Error Schema
  | [] => .ok s
  | n :: rest => do
    let s ← if n.kind.isTable then
        pushUnique "Selection" "selections" s ((n.schema?.map (·.columns)).getD [])
      else pushUnique "Selection" "selections" s [← valueColumn n]
    pushSelected s rest

/-- The selected columns; a selection of nothing selects all. -/
def selectionSchema (bound : Fields) : Except Error Schema :=
  match nodesIn "selections" bound with
  | [] => schemaIn "table" bound
  | selected => pushSelected .empty selected

def pushValues (field : String) (s : Schema) : List Node → Except Error Schema
  | [] => .ok s
  | n :: rest => do
    let s ← pushUnique "Aggregation" field s [← valueColumn n]
    pushValues field s rest

def aggregationSchema (bound : Fields) : Except Error Schema := do
  let keys ← pushValues "by" .empty (nodesIn "by" bound)
  pushValues "metrics" keys (nodesIn "metrics" bound)

/-- Adds the columns of the right side of a join, renaming those whose name is taken. -/
def pushRight (s : Schema) : List ColumnInfo → Except Error Schema
  | [] => .ok s
  | column :: rest => do
    let column := if s.contains column.name then
      { column with name := column.name ++ rightMark } else column
    pushRight (← pushUnique "Join" "right" s [column]) rest

def joinSchema (bound : Fields) : Except Error Schema := do
  pushRight (← schemaIn "left" bound) (← schemaIn "right" bound).columns

end TypedQuery.Rules
