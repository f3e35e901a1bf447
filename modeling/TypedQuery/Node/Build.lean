import TypedQuery.Node.Catalogue

/-!
# Building nodes

`Node.build` is how expressions come about: it checks a call against the signature of
the kind, and derives the attributes of the new node. `Node.replace` changes fields of a
node by building it anew, since what is derived from a field and what is validated
against it may change as well.
-/

namespace TypedQuery

namespace Node

/-- Derives attributes one after the other; each may look at those before it. -/
def derive (kind : NodeKind) (context derived : Fields) :
    List (String × Attribute) → Except Error Fields
  | [] => .ok derived
  | (name, rule) :: rest =>
    match rule context with
    | .ok a => derive kind (Fields.insert context name a) (Fields.insert derived name a) rest
    | .error e =>
      if e.isValidation then .error (e.withNode kind.name)
      else .error (.validation kind.name name e.message)

/-- The node of a kind with these arguments. -/
def build (kind : NodeKind) (args : List Arg) (kwargs : List (String × Arg)) :
    Except Error Node := do
  let definition := kind.definition
  if definition.isAbstract then
    .error (.validation kind.name "<kind>" "cannot instantiate an abstract node type")
  else
    let fields ← definition.signature.validate kind.name args kwargs
    let attributes ← derive kind fields [] definition.attributes
    .ok (mk kind fields attributes)

def changeFields (kind : NodeKind) (signature : Signature) (fields : Fields) :
    List (String × Arg) → Except Error Fields
  | [] => .ok fields
  | (name, a) :: rest =>
    match signature.param? name with
    | some _ => changeFields kind signature (Fields.insert fields name a) rest
    | none => .error (.validation kind.name name "unexpected keyword argument")

/-- The node with some of its fields changed. -/
def replace (n : Node) (changes : List (String × Arg)) : Except Error Node := do
  let signature := n.kind.definition.signature
  let fields ← changeFields n.kind signature n.fields changes
  let (args, kwargs) := signature.unbind fields
  build n.kind args kwargs

end Node

/-! ## Common calls -/

namespace Node

/-- A null of a given type. -/
def typedNull (t : DataType) : Except Error Node := build .literal [.value .null, .type t] []

def column (table : Node) (name : String) : Except Error Node :=
  build .tableColumn [.node table, .text name] []

def rename (a : Arg) (name : String) : Except Error Node := build .renamed [a, .text name] []

def castTo (a : Arg) (t : DataType) : Except Error Node := build .cast [a, .type t] []

def orderBy (key : Arg) (ascending : Bool) : Except Error Node :=
  build .sortKey [key, .bool ascending] []

def databaseTable (name : String) (schema : Schema) : Except Error Node :=
  build .databaseTable [.text name, .schema schema] []

def inMemoryTable (name : String) (schema : Schema) (rows : List (List Value)) :
    Except Error Node :=
  build .inMemoryTable
    [.text name, .schema schema, .seq (rows.map fun row => .seq (row.map Arg.value))] []

end Node

end TypedQuery
