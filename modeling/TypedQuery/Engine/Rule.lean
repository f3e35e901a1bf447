import TypedQuery.Emission.Walk
import TypedQuery.Plan.Basic

/-!
# What nodes become on the engine

A value becomes an expression, a table becomes a plan, and a list of nodes becomes a list
of expressions. A rule that needs one of them and is given another fails.
-/

namespace TypedQuery.Engine

inductive Lowered where
  | expr (e : Expr)
  | plan (p : Plan)
  | exprs (items : List Expr)

namespace Lowered

def describe : Lowered → String
  | expr _ => "an expression"
  | plan _ => "a frame"
  | exprs _ => "an expression list"

def toExpr : Lowered → Except Error Expr
  | expr e => .ok e
  | other => .error (.internal ("expected an expression, got " ++ other.describe))

def toPlan : Lowered → Except Error Plan
  | plan p => .ok p
  | other => .error (.internal ("expected a frame, got " ++ other.describe))

/-- A single expression counts as a list of one. -/
def toExprs : Lowered → Except Error (List Expr)
  | exprs items => .ok items
  | expr e => .ok [e]
  | other => .error (.internal ("expected expressions, got " ++ other.describe))

def toExprEach : List Lowered → Except Error (List Expr)
  | [] => .ok []
  | l :: rest => do
    let e ← l.toExpr
    let es ← toExprEach rest
    .ok (e :: es)

end Lowered

/-- What a rule may look at besides its node: the time, in nanoseconds since 1970. -/
structure Clock where
  now : Int64

abbrev Lowering (α : Type) := Emission Clock Lowered α

abbrev EngineRule := Rule Clock Lowered

/-!
## Words for engine rules

Reading the fields of a node as expressions, and as the constants that the engine needs
where a computation is shaped by a pattern, a width or a bound.
-/

/-- The name of the engine in messages. -/
def targetName : String := "engine"

def unsupported (n : Node) (field : String) : Error :=
  .unsupportedArgument n.kind.name field targetName

/-! ### Expressions -/

section

variable (emit : Node → Lowering Lowered) (n : Node)

def exprOf : Lowering Expr := do
  let output ← emit n
  output.toExpr

def expr (field : String) : Lowering Expr := do
  let output ← Emission.field emit n field
  output.toExpr

/-- A field that may be left out. -/
def expr? (field : String) : Lowering (Option Expr) := do
  match ← Emission.field? emit n field with
  | some output => return some (← output.toExpr)
  | none => return none

/-- Every node of a sequence, in order. -/
def exprs (field : String) : Lowering (List Expr) := do
  let outputs ← Emission.sequence emit n field
  Lowered.toExprEach outputs

/-- Several fields, in order. -/
def exprsOf : List String → Lowering (List Expr)
  | [] => return []
  | field :: rest => do
    let e ← expr emit n field
    let es ← exprsOf rest
    return e :: es

end

/-! ### Constants -/

section

variable (n : Node) (field : String)

def wrongLiteral (expected : String) (v : Value) : Error :=
  .type (n.kind.name ++ "." ++ field ++ " must be a " ++ expected
    ++ " literal, got " ++ v.kindName)

def textLiteral : Except Error String := do
  match ← n.requiredLiteral targetName field with
  | .string s => .ok s
  | v => .error (wrongLiteral n field "string" v)

/-- A null counts as left out. -/
def intLiteral? : Except Error (Option Int64) := do
  match ← n.optionalLiteral targetName field with
  | none | some .null => .ok none
  | some (.int64 k) => .ok (some k)
  | some v => .error (wrongLiteral n field "integer" v)

def intLiteral : Except Error Int64 := do
  match ← intLiteral? n field with
  | some k => .ok k
  | none => .error (unsupported n field)

def negativeCount (k : Int64) : Error :=
  .value (n.kind.name ++ "." ++ field ++ " must not be negative, got " ++ toString k.toInt)

def countOf (k : Int64) : Except Error Nat :=
  if k < 0 then .error (negativeCount n field k) else .ok k.toInt.toNat

def countLiteral : Except Error Nat := do countOf n field (← intLiteral n field)

/-- A constant as an expression; a null counts as left out. -/
def constant? : Except Error (Option Expr) := do
  match ← n.optionalLiteral targetName field with
  | none | some .null => .ok none
  | some v => .ok (some (.constant v))

end

/-! ### Rules -/

/-- A rule that reads fields and gives an expression. -/
def giving (rule : (Node → Lowering Lowered) → Node → Lowering Expr) : EngineRule :=
  fun emit n => do
  return .expr (← rule emit n)

/-- A function of the fields, in order. -/
def callOf (f : Function) (fields : List String) : EngineRule := giving fun emit n => do
  return .call f (← exprsOf emit n fields)

/-- A function of one field, with constants that are read from others before it is lowered.
-/
def callWith (read : Node → Except Error Function) (field : String) : EngineRule :=
  giving fun emit n => do
  let f ← read n
  return (← expr emit n field).callOne f

/-- What a table says about the kind of a node; a kind that it doesn't have is refused. -/
def lookup (table : List (NodeKind × α)) (n : Node) : Except Error α :=
  match table.find? (·.1 = n.kind) with
  | some (_, a) => .ok a
  | none => .error (.dispatch n.kind.name targetName)

end TypedQuery.Engine
