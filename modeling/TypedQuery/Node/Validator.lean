import TypedQuery.DataType.Basic
import TypedQuery.Node.Basic
import TypedQuery.Text.Quoted

/-!
# Validators

A validator looks at one argument in the light of the fields validated before it. It either
returns what the field will hold, which may differ from what was given (a plain value
becomes a literal where an expression is wanted), or says why the argument is refused.
-/

namespace TypedQuery

/-- The families of types a field may ask for. -/
inductive TypeFamily where
  | numeric
  | integer
  | string
  | boolean
  | temporal
  | timestamp
  | date
  | interval
  | array
  deriving DecidableEq

namespace TypeFamily

def name : TypeFamily → String
  | numeric => "numeric"
  | integer => "integer"
  | string => "string"
  | boolean => "boolean"
  | temporal => "temporal"
  | timestamp => "timestamp"
  | date => "date"
  | interval => "interval"
  | array => "array"

def holds : TypeFamily → DataType → Bool
  | numeric => DataType.isNumeric
  | integer => DataType.isInteger
  | string => DataType.isString
  | boolean => DataType.isBoolean
  | temporal => DataType.isTemporal
  | timestamp => DataType.isTimestamp
  | date => DataType.isDate
  | interval => DataType.isInterval
  | array => DataType.isArray

end TypeFamily

inductive Validator where
  | any
  | instanceOf (kind : NodeKind)
  /-- An expression of any type. -/
  | value
  /-- An expression with a type of the family, or without a type of its own. -/
  | valueOf (family : TypeFamily)
  | scalarValue
  | literal
  /-- What a literal may stand for: a plain value, or a sequence of them. -/
  | literalPayload
  | string
  | integer
  | boolean
  | dataType
  | schema
  | optional (inner : Validator)
  | tupleOf (inner : Validator)
  | mapOf (inner : Validator)
  | either (first second : Validator)
  | oneOf (options : List String)
  /-- The name of a column of the table in another field. -/
  | columnOf (field : String)
  | comparableWith (field : String)
  | sameLengthAs (field : String)
  /-- A sort key, or an expression to sort upwards by. -/
  | sortKey
  /-- Rows of plain values that fit the schema in another field. -/
  | rowsOf (field : String)
  deriving DecidableEq

namespace Validator

def table : Validator := instanceOf .tableNode

def description : Validator → String
  | any => "any"
  | instanceOf kind => "instance of " ++ kind.name
  | value => "value"
  | valueOf family => family.name ++ " value"
  | scalarValue => "scalar value"
  | literal => "literal"
  | literalPayload => "literal payload"
  | string => "string"
  | integer => "integer"
  | boolean => "boolean"
  | dataType => "datatype"
  | schema => "schema"
  | optional inner => "optional " ++ inner.description
  | tupleOf inner => "tuple of " ++ inner.description
  | mapOf inner => "map of " ++ inner.description
  | either first second => first.description ++ " or " ++ second.description
  | oneOf options => "one of " ++ Text.quoteList options
  | columnOf field => "column of " ++ field
  | comparableWith field => "comparable with " ++ field
  | sameLengthAs field => "same length as " ++ field
  | sortKey => "sort key"
  | rowsOf field => "rows of " ++ field

/-! ## Single arguments -/

def expected (what : String) (a : Arg) : Except String α :=
  .error ("expected " ++ what ++ ", got " ++ a.describe)

/-- An expression, made of a plain value when that is given. -/
def expression : Arg → Except String Arg
  | .value v => .ok (.node (.literal v))
  | .node n => if n.kind.isValue then .ok (.node n)
    else expected "a value expression" (.node n)
  | a => expected "a value expression" a

def typeOf (a : Arg) : Except String DataType :=
  match a.node?.bind Node.dataType? with
  | some t => .ok t
  | none => expected "a typed value" a

def ofFamily (family : TypeFamily) (a : Arg) : Except String Arg := do
  let a ← expression a
  let t ← typeOf a
  if family.holds t || t.isNull then .ok a
  else .error ("expected a " ++ family.name ++ " value, got " ++ t.name)

def payload : Arg → Except String Arg
  | .value v => .ok (.value v)
  | .seq items => do
    let values ← items.mapM fun item =>
      match item with
      | .value v => .ok v
      | other => .error ("array literals hold plain values, got " ++ other.describe)
    .ok (.value (.array values))
  | a => expected "a plain value" a

def ofKind (kind : NodeKind) (a : Arg) : Except String Arg :=
  match a with
  | .node n => if n.kind.isUnder kind then .ok a
    else expected ("an instance of " ++ kind.name) a
  | a => expected ("an instance of " ++ kind.name) a

def columnName (field : String) (a : Arg) (bound : Fields) : Except String Arg := do
  let name ← match a.string? with
    | some name => .ok name
    | none => expected "a column name" a
  match (Fields.node? bound field).bind Node.schema? with
  | none => .error ("field " ++ field ++ " is not a bound relation")
  | some columns =>
    if columns.contains name then .ok a
    else .error ("column " ++ Text.quote name ++ " is not in " ++ columns.render)

def comparable (field : String) (a : Arg) (bound : Fields) : Except String Arg := do
  let a ← expression a
  match Fields.field? bound field with
  | none => .error ("field " ++ field ++ " is not bound")
  | some other =>
    let left ← typeOf other
    let right ← typeOf a
    if left.isComparableWith right then .ok a
    else .error (right.name ++ " is not comparable with " ++ field
      ++ " of type " ++ left.name)

/-! ## Many arguments -/

/-- Checks each item; the message of a refused item tells its position. -/
def eachFrom (check : Arg → Except String Arg) (position : Nat) :
    List Arg → Except String (List Arg)
  | [] => .ok []
  | item :: rest => do
    let item ← match check item with
      | .ok item => .ok item
      | .error reason => .error ("element " ++ toString position ++ ": " ++ reason)
    .ok (item :: (← eachFrom check (position + 1) rest))

def eachEntry (check : Arg → Except String Arg) :
    List (String × Arg) → Except String (List (String × Arg))
  | [] => .ok []
  | (key, a) :: rest => do
    let a ← match check a with
      | .ok a => .ok a
      | .error reason => .error ("key " ++ Text.quote key ++ ": " ++ reason)
    .ok ((key, a) :: (← eachEntry check rest))

/-- A sequence; anything else but nothing is a sequence of one. -/
def sequence (check : Arg → Except String Arg) : Arg → Except String (List Arg)
  | .seq items => eachFrom check 0 items
  | .none => .error "expected a sequence, got None"
  | single => eachFrom check 0 [single]

def sameLength (field : String) (a : Arg) (bound : Fields) : Except String Arg := do
  let items ← sequence expression a
  match (Fields.field? bound field).bind Arg.seq? with
  | none => .error ("field " ++ field ++ " is not a bound sequence")
  | some others =>
    if items.length = others.length then .ok (.seq items)
    else .error ("expected " ++ toString others.length ++ " elements to match "
      ++ field ++ ", got "
      ++ toString items.length)

/-- Integers fit every integer column; other values fit the types they widen to. -/
def fits (t column : DataType) : Bool :=
  t.canCoerceTo column || (t.isInteger && column.isInteger)

def checkCell (row : Nat) (column : ColumnInfo) (cell : Arg) : Except String Unit :=
  match cell.value? with
  | none => .error
    ("row " ++ toString row ++ ": expected a plain value, got " ++ cell.describe)
  | some v =>
    if fits v.dataType column.dataType then .ok ()
    else .error ("row " ++ toString row ++ ": " ++ v.dataType.name
      ++ " value does not fit column "
      ++ Text.quote column.name ++ " of type " ++ column.dataType.name)

def checkCells (row : Nat) : List ColumnInfo → List Arg → Except String Unit
  | column :: columns, cell :: cells => do
    checkCell row column cell
    checkCells row columns cells
  | _, _ => .ok ()

def checkRows (columns : List ColumnInfo) (row : Nat) : List Arg → Except String Unit
  | [] => .ok ()
  | cells :: rest => do
    match cells.seq? with
    | none =>
      .error ("row " ++ toString row ++ ": expected a sequence, got " ++ cells.describe)
    | some items =>
      if items.length = columns.length then checkCells row columns items
      else .error ("row " ++ toString row ++ ": expected " ++ toString columns.length
        ++ " values, got " ++ toString items.length)
    checkRows columns (row + 1) rest

def rows (field : String) (a : Arg) (bound : Fields) : Except String Arg :=
  match (Fields.field? bound field).bind Arg.schema? with
  | none => .error ("field " ++ field ++ " is not a bound schema")
  | some columns =>
    match a.seq? with
    | none => expected "a sequence of rows" a
    | some items => do
      checkRows columns.columns 0 items
      .ok a

/-! ## Validation -/

def ofView (view : Arg → Option α) (what : String) (a : Arg) : Except String Arg :=
  match view a with
  | some _ => .ok a
  | none => expected what a

/-- What the field will hold, given the fields validated before it. -/
def validate : Validator → Arg → Fields → Except String Arg
  | any, a, _ => .ok a
  | instanceOf kind, a, _ => ofKind kind a
  | value, a, _ => expression a
  | valueOf family, a, _ => ofFamily family a
  | scalarValue, a, _ => do
    let a ← expression a
    if a.node?.bind Node.shape? = some .scalar then .ok a else expected "a scalar value" a
  | literal, a, _ => do
    let a ← expression a
    if (a.node?.map Node.isLiteral).getD false then .ok a else expected "a literal" a
  | literalPayload, a, _ => payload a
  | string, a, _ => ofView Arg.string? "a string" a
  | integer, a, _ => ofView Arg.int? "an integer" a
  | boolean, a, _ => ofView Arg.bool? "a boolean" a
  | dataType, a, _ => ofView Arg.type? "a datatype" a
  | schema, a, _ =>
    match a.schema? with
    | none => expected "a schema" a
    | some s =>
      if s.duplicateNames.isEmpty then .ok a
      else .error ("duplicate column names " ++ Text.quoteList s.duplicateNames)
  | optional inner, a, bound => if a.isNone then .ok .none else inner.validate a bound
  | tupleOf inner, a,
    bound => do .ok (.seq (← sequence (fun item => inner.validate item bound) a))
  | mapOf inner, a, bound =>
    match a.map? with
    | none => expected "a mapping" a
    | some entries =>
      do .ok (.map (← eachEntry (fun item => inner.validate item bound) entries))
  | either first second, a, bound =>
    match first.validate a bound with
    | .ok a => .ok a
    | .error reason =>
      match second.validate a bound with
      | .ok a => .ok a
      | .error other => .error (reason ++ "; " ++ other)
  | oneOf options, a, _ =>
    match a.string? with
    | some s => if options.contains s then .ok a
      else expected ("one of " ++ Text.quoteList options) a
    | none => expected ("one of " ++ Text.quoteList options) a
  | columnOf field, a, bound => columnName field a bound
  | comparableWith field, a, bound => comparable field a bound
  | sameLengthAs field, a, bound => sameLength field a bound
  | sortKey, a, _ =>
    match ofKind .sortKey a with
    | .ok a => .ok a
    | .error _ => do .ok (.node (.sortKey (← expression a) true))
  | rowsOf field, a, bound => rows field a bound

theorem optional_of_ne_none {inner : Validator} {a : Arg} (h : a.isNone = false)
    (bound : Fields) :
    (optional inner).validate a bound = inner.validate a bound := by
  rw [validate, if_neg (by rw [h]; decide)]

end Validator

end TypedQuery
