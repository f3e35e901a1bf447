import TypedQuery.Binary64.Exact
import TypedQuery.Engine.Rule
import TypedQuery.Node.Access

/-!
# Operators on the engine

Rules for constants, columns, conditions, arithmetic and reductions. Division and powers
are computed with doubles.
-/

namespace TypedQuery.Engine

/-! ## Constants, columns and conditions -/

def literalRule : EngineRule := giving fun _ n =>
  match n.literal? with
  | some v => return .literal v (n.dataType?.getD v.dataType)
  | none => throw (.internal "literal without a value")

def columnRule : EngineRule := giving fun _ n => return .column (← n.stringField "name")

def aliasRule : EngineRule := giving fun emit n => do
  let e ← expr emit n "arg"
  return .named e (← n.stringField "name")

def castRule : EngineRule := giving fun emit n => do
  match (← n.field "to").type? with
  | none => throw (.internal "Cast.to is not a type")
  | some t => return .cast (← expr emit n "arg") t

/-- Null, as a constant of the node's type. -/
def nullOf (n : Node) : Except Error Expr := do .ok (.literal .null (← n.outputType))

/-- The expression, or null where it equals another. -/
def nullWhereEqual (n : Node) (e other : Expr) : Except Error Expr := do
  .ok (.choose (e.equals other) (← nullOf n) e)

def fillRule : EngineRule := giving fun emit n => do
  let fill ← expr emit n "ifnull_expr"
  return .fillNull (← expr emit n "arg") fill

def nullIfRule : EngineRule := giving fun emit n => do
  let e ← expr emit n "arg"
  let other ← expr emit n "null_if_expr"
  nullWhereEqual n e other

def nullIfZeroRule : EngineRule := giving fun emit n => do
  nullWhereEqual n (← expr emit n "arg") (.ofInt 0)

def conditionRule : EngineRule := giving fun emit n => do
  let p ← expr emit n "bool_expr"
  let a ← expr emit n "true_expr"
  let b ← expr emit n "false_null_expr"
  return .choose p a b

/-- The result of the first case that holds. -/
def firstCase (default : Expr) : List (Expr × Expr) → Expr
  | [] => default
  | (case, result) :: rest => .choose case result (firstCase default rest)

def simpleCaseRule : EngineRule := giving fun emit n => do
  let base ← expr emit n "base"
  let cases ← exprs emit n "cases"
  let results ← exprs emit n "results"
  let default ← expr emit n "default"
  return firstCase default ((cases.map base.equals).zip results)

def searchedCaseRule : EngineRule := giving fun emit n => do
  let cases ← exprs emit n "cases"
  let results ← exprs emit n "results"
  let default ← expr emit n "default"
  return firstCase default (cases.zip results)

def betweenRule : EngineRule := giving fun emit n => do
  let e ← expr emit n "arg"
  let low ← expr emit n "lower_bound"
  let high ← expr emit n "upper_bound"
  return .between e low high

def membership : (Node → Lowering Lowered) → Node → Lowering Expr := fun emit n => do
  let e ← expr emit n "value"
  return .isIn e (← exprs emit n "options")

def genericRules : List (NodeKind × EngineRule) :=
  [(.literal, literalRule), (.tableColumn, columnRule), (.renamed, aliasRule),
    (.cast, castRule), (.sortKey, giving fun emit n => expr emit n "expr"),
    (.nodeList, fun emit n => return .exprs (← exprs emit n "values")),
    (.ifNull, fillRule), (.nullIf, nullIfRule),
    (.zeroIfNull, giving fun emit n => return .fillNull (← expr emit n "arg") (.ofInt 0)),
    (.nullIfZero, nullIfZeroRule), (.ifElse, conditionRule), (.simpleCase, simpleCaseRule),
    (.searchedCase, searchedCaseRule), (.between, betweenRule),
    (.contains, giving membership),
    (.notContains, giving fun emit n => return .unary .not (← membership emit n)),
    (.coalesce, giving fun emit n => return .coalesce (← exprs emit n "arg")),
    (.greatest, giving fun emit n => return .greatest (← exprs emit n "arg")),
    (.least, giving fun emit n => return .least (← exprs emit n "arg"))]

/-! ## Operators -/

def unaryOps : List (NodeKind × UnaryOp) :=
  [(.negate, .negate), (.not, .not), (.bitwiseNot, .complement), (.isNull, .isNull),
    (.notNull, .isNotNull), (.isNan, .isNan), (.isInf, .isInfinite), (.abs, .abs),
    (.sign, .sign), (.exp, .exp), (.ln, .ln), (.log2, .log2), (.log10, .log10),
    (.sqrt, .sqrt), (.acos, .acos), (.asin, .asin), (.atan, .atan), (.cos, .cos),
    (.sin, .sin), (.tan, .tan)]

def binaryOps : List (NodeKind × BinaryOp) :=
  [(.add, .arithmetic .add), (.subtract, .arithmetic .subtract),
    (.multiply, .arithmetic .multiply), (.modulus, .arithmetic .remainder),
    (.equals, .compare .equal), (.notEquals, .compare .notEqual),
    (.greater, .compare .greater), (.greaterEqual, .compare .greaterEqual),
    (.less, .compare .less), (.lessEqual, .compare .lessEqual), (.and, .logic .and),
    (.or, .logic .or), (.xor, .logic .xor), (.bitwiseAnd, .bitwise .and),
    (.bitwiseOr, .bitwise .or), (.bitwiseXor, .bitwise .xor),
    (.bitwiseLeftShift, .bitwise .shiftLeft), (.bitwiseRightShift, .bitwise .shiftRight)]

def unaryRule : EngineRule := giving fun emit n => do
  let op ← lookup unaryOps n
  return .unary op (← expr emit n "arg")

def binaryRule : EngineRule := giving fun emit n => do
  let op ← lookup binaryOps n
  let left ← expr emit n "left"
  let right ← expr emit n "right"
  return .binary left op right

/-- An operator on both operands as doubles. -/
def onDoubles (op : BinaryOp) (emit : Node → Lowering Lowered) (n : Node) :
    Lowering Expr := do
  let left ← expr emit n "left"
  let right ← expr emit n "right"
  return .binary (.cast left .float64) op (.cast right .float64)

def floorDivideRule : EngineRule := giving fun emit n => do
  let quotient ← onDoubles (.arithmetic .divide) emit n
  return .cast (.unary .floor quotient) (← n.outputType)

def operatorRules : List (NodeKind × EngineRule) :=
  [(.unary, unaryRule), (.binary, binaryRule),
    (.divide, giving (onDoubles (.arithmetic .divide))),
    (.power, giving (onDoubles .power)), (.floorDivide, floorDivideRule)]

/-! ## Numbers -/

/-- To the next whole number in one direction. -/
def towardsRule (op : UnaryOp) : EngineRule := giving fun emit n => do
  return .cast (.unary op (← expr emit n "arg")) .int64

def cotangentRule : EngineRule := giving fun emit n => do
  let e ← expr emit n "arg"
  return .divide (.unary .cos e) (.unary .sin e)

/-- The angle π, in radians. -/
def halfTurn : Float := 3.141592653589793

def scaledRule (factor : Float) : EngineRule := giving fun emit n => do
  return .multiply (.cast (← expr emit n "arg") .float64) (.constant (.float64 factor))

/-- The factor that moves as many decimal places in front of the point. -/
def decimalScale (digits : Int64) : Except Error Float :=
  if digits.toInt = digits.toInt32.toInt then .ok (Binary64.power 10.0 digits.toInt)
  else .error (.value ("Round.digits out of range: " ++ toString digits.toInt))

def roundRule : EngineRule := giving fun emit n => do
  let e ← expr emit n "arg"
  let digits := (← intLiteral? n "digits").getD 0
  if digits = 0 then return .cast (.unary .round e) (← n.outputType)
  else
    let scale := Expr.constant (.float64 (← decimalScale digits))
    let moved := Expr.unary .round (.multiply (.cast e .float64) scale)
    return .cast (.divide moved scale) (← n.outputType)

def atMost (e : Expr) : Option Expr → Expr
  | some upper => .choose (e.greater upper) upper e
  | none => e

def atLeast (e : Expr) : Option Expr → Expr
  | some lower => .choose (e.less lower) lower e
  | none => e

/-- The lower bound is applied last, so it wins where the bounds cross. -/
def clipRule : EngineRule := giving fun emit n => do
  let e ← expr emit n "arg"
  let lower ← constant? n "lower"
  let upper ← constant? n "upper"
  if lower.isNone && upper.isNone then
    throw (.inexpressible "Clip needs a lower or an upper bound")
  return .cast (atLeast (atMost e upper) lower) (← n.outputType)

/-- A logarithm to another base is a quotient of natural ones. -/
def logarithmRule : EngineRule := giving fun emit n => do
  let natural := Expr.unary .ln (← expr emit n "arg")
  match ← n.optionalLiteral targetName "base" with
  | none | some .null => return natural
  | some v =>
    match v.float? with
    | some base => return .divide natural (.constant (.float64 (base.lift Float.log)))
    | none => throw (wrongLiteral n "base" "numeric" v)

def numericRules : List (NodeKind × EngineRule) :=
  [(.ceil, towardsRule .ceil), (.floor, towardsRule .floor),
    (.atan2, callOf .atan2 ["left", "right"]), (.cot, cotangentRule),
    (.radians, scaledRule (halfTurn / 180.0)), (.degrees, scaledRule (180.0 / halfTurn)),
    (.round, roundRule), (.clip, clipRule), (.log, logarithmRule)]

/-! ## Reductions -/

def reductions : List (NodeKind × Reduction) :=
  [(.count, .count), (.countDistinct, .countDistinct), (.sum, .sum), (.mean, .mean),
    (.min, .min), (.max, .max), (.approxMedian, .median), (.arrayCollect, .collect)]

def reduced (f : Reduction) (emit : Node → Lowering Lowered) (n : Node) : Lowering Expr := do
  let e ← expr emit n "arg"
  return .reduce f e (← expr? emit n "where")

/-- The spread of a whole population gives up no degree of freedom, that of a sample one. -/
def spreadRule (make : Nat → Reduction) : EngineRule := giving fun emit n => do
  reduced (make (if (← n.stringField "how") = "pop" then 0 else 1)) emit n

def reductionRules : List (NodeKind × EngineRule) :=
  [(.reduction, giving fun emit n => do reduced (← lookup reductions n) emit n),
    (.standardDev, spreadRule .std), (.variance, spreadRule .variance),
    (.countStar, giving fun emit n => return .countRows (← expr? emit n "where"))]

def valueRules : List (NodeKind × EngineRule) :=
  genericRules ++ operatorRules ++ numericRules ++ reductionRules

/-! ## Lists

Operands are first converted to the type of the result, so that lists of one element
type meet.
-/

def listConcatRule : EngineRule := giving fun emit n => do
  let t ← n.outputType
  let left ← expr emit n "left"
  let right ← expr emit n "right"
  return .call .listConcat [.cast left t, .cast right t]

def elementType (n : Node) : Except Error DataType := do
  match (← n.outputType).element? with
  | some t => .ok t
  | none => .error (.internal (n.kind.name ++ " is not array typed"))

def listFromColumnsRule : EngineRule := giving fun emit n => do
  let t ← elementType n
  let items ← exprs emit n "cols"
  return .call .listFromColumns (items.map (.cast · t))

def listRules : List (NodeKind × EngineRule) :=
  [(.arrayLength, callOf .listLength ["arg"]), (.arrayConcat, listConcatRule),
    (.arrayColumn, listFromColumnsRule)]

end TypedQuery.Engine
