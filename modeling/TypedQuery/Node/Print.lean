import TypedQuery.Node.Basic
import TypedQuery.Outline
import TypedQuery.Text.Quoted

/-!
# Printing nodes

`Node.explain` is the outline of an expression, meant for reading. `Node.debug` writes
every field exactly, with the constructor of everything in it.
-/

namespace TypedQuery

/-! ## Exact form of what fields hold -/

namespace DataType

def debug : DataType → String
  | null => "Null"
  | boolean => "Bool"
  | int32 => "Int32"
  | int64 => "Int64"
  | float64 => "Float64"
  | string => "String"
  | binary => "Binary"
  | date => "Date"
  | timestamp unit => "Timestamp(" ++ unit.name ++ ")"
  | interval unit => "Interval(" ++ unit.name ++ ")"
  | array element => "Array(" ++ element.debug ++ ")"

end DataType

namespace Value

mutual

def debug : Value → String
  | null => "Null"
  | bool b => "Bool(" ++ (if b then "true" else "false") ++ ")"
  | int64 n => "Int64(" ++ toString n.toInt ++ ")"
  | float64 x => "Float64(" ++ Decimal.Style.plain.render x.toFloat ++ ")"
  | string s => "String(" ++ Text.quote s ++ ")"
  | binary bytes =>
    "Binary([" ++ ", ".intercalate (bytes.map fun b => toString b.toNat) ++ "])"
  | date days => "Date(" ++ toString days.toInt ++ ")"
  | timestamp ticks unit => "Timestamp(" ++ toString ticks.toInt ++ ", " ++ unit.name ++ ")"
  | interval steps unit => "Interval(" ++ toString steps.toInt ++ ", " ++ unit.name ++ ")"
  | array items => "Array([" ++ ", ".intercalate (debugList items) ++ "])"

def debugList : List Value → List String
  | [] => []
  | v :: rest => v.debug :: debugList rest

end

end Value

def Shape.debug : Shape → String
  | .scalar => "Scalar"
  | .columnar => "Columnar"

def ColumnInfo.debug (c : ColumnInfo) : String :=
  "ColumnInfo \x7b name: " ++ Text.quote c.name ++ ", data_type: " ++ c.dataType.debug
    ++ ", nullable: "
    ++ (if c.nullable then "true" else "false") ++ " \x7d"

def Schema.debug (s : Schema) : String :=
  "Schema \x7b columns: [" ++ ", ".intercalate (s.columns.map (·.debug)) ++ "] \x7d"

mutual

def Node.debug : Node → String
  | .mk kind fields _ => kind.name ++ "(" ++ ", ".intercalate (Arg.debugFields fields) ++ ")"

def Arg.debug : Arg → String
  | .none => "None"
  | .value v => "Value(" ++ v.debug ++ ")"
  | .node n => "Node(" ++ n.debug ++ ")"
  | .seq items => "Seq([" ++ ", ".intercalate (Arg.debugItems items) ++ "])"
  | .map entries => "Map([" ++ ", ".intercalate (Arg.debugEntries entries) ++ "])"
  | .type t => "Type(" ++ t.debug ++ ")"
  | .shape s => "Shape(" ++ s.debug ++ ")"
  | .schema s => "Schema(" ++ s.debug ++ ")"

def Arg.debugItems : List Arg → List String
  | [] => []
  | a :: rest => a.debug :: Arg.debugItems rest

def Arg.debugEntries : List (String × Arg) → List String
  | [] => []
  | (key, a) :: rest => ("(" ++ Text.quote key ++ ", " ++ a.debug ++ ")")
    :: Arg.debugEntries rest

/-- The fields of a node; plain values appear in their short form. -/
def Arg.debugFields : List (String × Arg) → List String
  | [] => []
  | (name, .value v) :: rest => (name ++ "=" ++ v.render) :: Arg.debugFields rest
  | (name, a) :: rest => (name ++ "=" ++ a.debug) :: Arg.debugFields rest

end

/-! ## Outline -/

namespace Node

/-- The fields that fit on a line. -/
def fieldDetail : String × Arg → Option String
  | (name, .value v) => some (name ++ "=" ++ v.render)
  | (name, .type t) => some (name ++ "=" ++ t.name)
  | _ => none

def details (n : Node) : Option String :=
  let parts := n.fields.filterMap fieldDetail ++
    match n.dataType? with
    | some t => [":: " ++ t.name]
    | none => []
  if parts.isEmpty then none else some (", ".intercalate parts)

end Node

mutual

def Node.outline : Node → Outline
  | .mk kind fields attributes =>
    .node kind.name (Node.mk kind fields attributes).details (Arg.outlinesOfFields fields)

def Arg.outlines : Arg → List Outline
  | .node n => [n.outline]
  | .seq items => Arg.outlinesOfItems items
  | .map entries => Arg.outlinesOfFields entries
  | _ => []

def Arg.outlinesOfItems : List Arg → List Outline
  | [] => []
  | a :: rest => a.outlines ++ Arg.outlinesOfItems rest

def Arg.outlinesOfFields : List (String × Arg) → List Outline
  | [] => []
  | (_, a) :: rest => a.outlines ++ Arg.outlinesOfFields rest

end

/-- The expression as an outline, with details of at most sixty characters. -/
def Node.explain (n : Node) : String := n.outline.render (some 60)

end TypedQuery
