import TypedQuery.Sql.Rule

/-!
# Operators in SQL

Rules for constants, columns, conditions, arithmetic and reductions.
-/

namespace TypedQuery.Sql

open Emission

/-! ## Constants, columns and conditions -/

def literalRule : SqlRule := fun _ n =>
  match n.literal? with
  | some v => literal v
  | none => throw (.internal "literal without a value")

def columnRule : SqlRule := fun _ n => do
  let s ← target
  let table ← n.child "table"
  let name ← n.stringField "name"
  s.column table name

def castRule : SqlRule := fun emit n => do
  match (← n.field "to").type? with
  | none => throw (.internal "Cast.to is not a type")
  | some t =>
    let arg ← field emit n "arg"
    let name ← typeName t
    return "CAST(" ++ arg ++ " AS " ++ name ++ ")"

def branches : List String → List String → String
  | case :: cases, result :: results => " WHEN " ++ case ++ " THEN " ++ result
    ++ branches cases results
  | _, _ => ""

def caseText (emit : Node → Writing String) (n : Node) (subject : String) :
    Writing String := do
  let cases ← sequence emit n "cases"
  let results ← sequence emit n "results"
  let default ← field emit n "default"
  return "CASE" ++ subject ++ branches cases results ++ " ELSE " ++ default ++ " END"

def simpleCaseRule : SqlRule := fun emit n => do
  caseText emit n (" " ++ (← field emit n "base"))

def betweenRule : SqlRule := fun emit n => do
  let arg ← field emit n "arg"
  let lower ← field emit n "lower_bound"
  let upper ← field emit n "upper_bound"
  return arg ++ " BETWEEN " ++ lower ++ " AND " ++ upper

def membershipRule (keyword : String) : SqlRule := fun emit n => do
  let value ← field emit n "value"
  let options ← sequence emit n "options"
  return value ++ " " ++ keyword ++ " (" ++ ", ".intercalate options ++ ")"

def genericRules : List (NodeKind × SqlRule) :=
  [(.literal, literalRule), (.tableColumn, columnRule),
    -- Only a list of items names what is in it.
    (.renamed, fun emit n => field emit n "arg"),
    (.cast, castRule), (.ifNull, callOf "coalesce" ["arg", "ifnull_expr"]),
    (.nullIf, callOf "nullif" ["arg", "null_if_expr"]),
    (.ifElse, callOf "if" ["bool_expr", "true_expr", "false_null_expr"]),
    (.simpleCase, simpleCaseRule), (.searchedCase, fun emit n => caseText emit n ""),
    (.between, betweenRule), (.contains, membershipRule "IN"),
    (.notContains, membershipRule "NOT IN")]

/-! ## Operators -/

def floorDivideRule : SqlRule := fun emit n => do
  let left ← field emit n "left"
  let right ← field emit n "right"
  return "floor(" ++ left ++ " / " ++ right ++ ")"

def xorRule : SqlRule := fun emit n => do
  let left ← field emit n "left"
  let right ← field emit n "right"
  return "((" ++ left ++ " OR " ++ right ++ ") AND NOT (" ++ left ++ " AND " ++ right ++ "))"

def roundRule : SqlRule := fun emit n => do
  let arg ← field emit n "arg"
  let digits ← field? emit n "digits"
  return call "round" (arg :: digits.toList)

def clipRule : SqlRule := fun emit n => do
  let arg ← field emit n "arg"
  let lower ← field? emit n "lower"
  let upper ← field? emit n "upper"
  if lower.isNone && upper.isNone then
    throw (.inexpressible "Clip needs a lower or an upper bound")
  else
    let below := match upper with
      | some bound => call "least" [arg, bound]
      | none => arg
    return match lower with
      | some bound => call "greatest" [below, bound]
      | none => below

def logRule : SqlRule := fun emit n => do
  let arg ← field emit n "arg"
  match ← field? emit n "base" with
  | some base => return call "log" [base, arg]
  | none => return call "ln" [arg]

def binaryOperators : List (NodeKind × String) :=
  [(.add, "+"), (.subtract, "-"), (.multiply, "*"), (.divide, "/"),
    (.modulus, "%"), (.equals, "="), (.notEquals, "!="), (.greater, ">"),
    (.greaterEqual, ">="), (.less, "<"), (.lessEqual, "<="), (.and, "AND"), (.or, "OR")]

def binaryFunctions : List (NodeKind × String) :=
  [(.power, "pow"), (.atan2, "atan2"), (.arrayConcat, "concat"), (.bitwiseAnd, "bitand"),
    (.bitwiseOr, "bitor"), (.bitwiseXor, "bitxor"), (.bitwiseLeftShift, "shiftleft"),
    (.bitwiseRightShift, "shiftright")]

def unaryFunctions : List (NodeKind × String) :=
  [(.bitwiseNot, "bitnot"), (.isNan, "is_nan"), (.isInf, "is_inf"),
    (.zeroIfNull, "zeroifnull"), (.nullIfZero, "nullifzero"), (.abs, "abs"), (.exp, "exp"),
    (.ln, "ln"), (.log2, "log2"), (.log10, "log10"), (.sqrt, "sqrt"), (.sign, "sign"),
    (.acos, "acos"), (.asin, "asin"), (.atan, "atan"), (.cos, "cos"), (.sin, "sin"),
    (.tan, "tan"), (.cot, "cot"), (.radians, "radians"), (.degrees, "degrees"),
    (.arrayLength, "cardinality")]

def variadicFunctions : List (NodeKind × String) :=
  [(.coalesce, "coalesce"), (.greatest, "greatest"), (.least, "least"),
    (.stringConcat, "concat")]

def operatorRules : List (NodeKind × SqlRule) :=
  binaryOperators.map (fun (kind, symbol) => (kind, operator symbol))
    ++ binaryFunctions.map (fun (kind, name) => (kind, callOf name ["left", "right"]))
    ++ unaryFunctions.map (fun (kind, name) => (kind, callOf name ["arg"]))
    ++ variadicFunctions.map (fun (kind, name) => (kind, callOfAll name "arg"))
    ++ [(.floorDivide, floorDivideRule), (.xor, xorRule), (.negate, around "(-" "arg" ")"),
      (.not, around "(NOT " "arg" ")"), (.isNull, around "" "arg" " IS NULL"),
      (.notNull, around "" "arg" " IS NOT NULL"),
      (.ceil, around "CAST(ceil(" "arg" ") AS bigint)"),
      (.floor, around "CAST(floor(" "arg" ") AS bigint)"),
      (.arrayColumn, callOfAll "array" "cols"), (.round, roundRule), (.clip, clipRule),
      (.log, logRule)]

/-! ## Reductions -/

/-- What a reduction reduces: rows left out by its condition count as nulls. -/
def filteredArg (emit : Node → Writing String) (n : Node) : Writing String := do
  let arg ← field emit n "arg"
  match ← field? emit n "where" with
  | some condition => return "CASE WHEN " ++ condition ++ " THEN " ++ arg ++ " ELSE NULL END"
  | none => return arg

def reductionRule (name : String) : SqlRule := fun emit n => do
  return call name [← filteredArg emit n]

def countDistinctRule : SqlRule := fun emit n => do
  return "count(DISTINCT " ++ (← filteredArg emit n) ++ ")"

def countRowsRule : SqlRule := fun emit n => do
  match ← field? emit n "where" with
  | some condition => return "sum(CASE WHEN " ++ condition ++ " THEN 1 ELSE 0 END)"
  | none => return "count(*)"

/-- Deviation of a sample or of the whole population. -/
def deviationRule (name : String) : SqlRule := fun emit n => do
  let how ← n.stringField "how"
  let arg ← filteredArg emit n
  return call (name ++ (if how = "pop" then "_pop" else "_samp")) [arg]

def reductionRules : List (NodeKind × SqlRule) :=
  [(.count, reductionRule "count"), (.sum, reductionRule "sum"),
    (.mean, reductionRule "avg"), (.min, reductionRule "min"), (.max, reductionRule "max"),
    (.approxMedian, reductionRule "appx_median"),
    (.arrayCollect, reductionRule "collect_list"), (.countDistinct, countDistinctRule),
    (.countStar, countRowsRule), (.standardDev, deviationRule "stddev"),
    (.variance, deviationRule "var")]

end TypedQuery.Sql
