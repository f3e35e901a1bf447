import TypedQuery.Error
import TypedQuery.Node.Basic
import TypedQuery.Text.Quoted

/-!
# Reading nodes

Reading the fields of a node by the sort of thing they should hold, and the three faces of
a node: a value has a name, a type and a shape, a table has a name or none and a schema.
Asking a node for what its kind does not have is an error.
-/

namespace TypedQuery

namespace Node

/-! ## Fields -/

def field (n : Node) (name : String) : Except Error Arg :=
  match n.get? name with
  | some a => .ok a
  | none => .error (.internal (n.kind.name ++ " has no field " ++ Text.quote name))

/-- A field read as one sort of thing; `expected` says which, for the message. -/
def fieldAs (read : Arg → Option α) (expected : String) (n : Node) (name : String) :
    Except Error α := do
  match read (← n.field name) with
  | some a => .ok a
  | none => .error (.internal (n.kind.name ++ "." ++ name ++ " is not " ++ expected))

def child (n : Node) (name : String) : Except Error Node := fieldAs Arg.node? "a node" n name

def child? (n : Node) (name : String) : Option Node := (n.get? name).bind Arg.node?

def stringField (n : Node) (name : String) : Except Error String :=
  fieldAs Arg.string? "a string" n name

def intField (n : Node) (name : String) : Except Error Int64 :=
  fieldAs Arg.int? "an integer" n name

def boolField (n : Node) (name : String) : Except Error Bool :=
  fieldAs Arg.bool? "a boolean" n name

/-- The nodes of a sequence; a sequence that was left out has none. -/
def childList (n : Node) (name : String) : Except Error (List Node) := do
  match ← n.field name with
  | .seq items => items.mapM fun item =>
    match item with
    | .node m => .ok m
    | _ => .error (.internal (n.kind.name ++ "." ++ name ++ " holds a non-node"))
  | .none => .ok []
  | other =>
    .error (.internal
      (n.kind.name ++ "." ++ name ++ " is not a sequence but " ++ other.describe))

/-! ## Faces -/

def outputType (n : Node) : Except Error DataType :=
  match n.dataType? with
  | some t => .ok t
  | none => .error (.type (n.kind.name ++ " is not a value"))

def outputShape (n : Node) : Except Error Shape :=
  match n.shape? with
  | some s => .ok s
  | none => .error (.type (n.kind.name ++ " is not a value"))

def outputSchema (n : Node) : Except Error Schema :=
  match n.schema? with
  | some s => .ok s
  | none => .error (.type (n.kind.name ++ " is not a table"))

/-- What an expression gives where it is used. -/
inductive Role where
  | scalar
  | column
  | table
  deriving DecidableEq

def role (n : Node) : Except Error Role :=
  if n.kind.isTable then .ok .table
  else n.outputShape.map fun
    | .scalar => .scalar
    | .columnar => .column

end Node

/-! ## Names -/

/-- The name of a node that is called by one of its fields. -/
def Node.givenName (n : Node) : Except Error String := n.stringField "name"

mutual

/-- The name of the column a value makes, or of a table that has one. A value without a
name of its own is named after its kind and the values in it. -/
def Node.name : Node → Except Error String
  | .mk kind fields attributes =>
    match kind with
    | .renamed | .tableColumn | .databaseTable | .inMemoryTable =>
      (Node.mk kind fields attributes).givenName
    | .literal => .ok (((Node.mk kind fields attributes).literal?.map Value.render).getD "")
    | kind =>
      if kind.isValue then do
        let names ← Arg.valueNamesOfFields fields
        .ok (kind.name ++ "(" ++ ", ".intercalate names ++ ")")
      else .error (.type (kind.name ++ " is not named"))

/-- The names of the values held by an argument. -/
def Arg.valueNames : Arg → Except Error (List String)
  | .node n => if n.kind.isValue then do .ok [← n.name] else .ok []
  | .seq items => Arg.valueNamesOfItems items
  | .map entries => Arg.valueNamesOfFields entries
  | _ => .ok []

def Arg.valueNamesOfItems : List Arg → Except Error (List String)
  | [] => .ok []
  | a :: rest => do
    let here ← a.valueNames
    let after ← Arg.valueNamesOfItems rest
    .ok (here ++ after)

def Arg.valueNamesOfFields : List (String × Arg) → Except Error (List String)
  | [] => .ok []
  | (_, a) :: rest => do
    let here ← a.valueNames
    let after ← Arg.valueNamesOfFields rest
    .ok (here ++ after)

end

end TypedQuery
