import TypedQuery.Time.Unit

/-!
# Logical data types

The types of value expressions and of columns. `DataType.name` is the written form used in
every message and in the outline of an expression.
-/

namespace TypedQuery

inductive DataType where
  | null
  | boolean
  | int32
  | int64
  | float64
  | string
  | binary
  | date
  | timestamp (unit : TimeUnit)
  | interval (unit : IntervalUnit)
  | array (element : DataType)
  deriving DecidableEq

namespace DataType

def name : DataType → String
  | null => "null"
  | boolean => "boolean"
  | int32 => "int32"
  | int64 => "int64"
  | float64 => "float64"
  | string => "string"
  | binary => "binary"
  | date => "date"
  | timestamp unit => "timestamp(" ++ unit.code ++ ")"
  | interval unit => "interval('" ++ unit.code ++ "')"
  | array element => "array<" ++ element.name ++ ">"

def isNumeric : DataType → Bool
  | int32 | int64 | float64 => true
  | _ => false

def isInteger : DataType → Bool
  | int32 | int64 => true
  | _ => false

def isFloating : DataType → Bool
  | float64 => true
  | _ => false

def isBoolean : DataType → Bool
  | boolean => true
  | _ => false

def isString : DataType → Bool
  | string => true
  | _ => false

/-- Dates and timestamps. -/
def isTemporal : DataType → Bool
  | date | timestamp _ => true
  | _ => false

def isTimestamp : DataType → Bool
  | timestamp _ => true
  | _ => false

def isDate : DataType → Bool
  | date => true
  | _ => false

def isInterval : DataType → Bool
  | interval _ => true
  | _ => false

def isNull : DataType → Bool
  | null => true
  | _ => false

def isArray : DataType → Bool
  | array _ => true
  | _ => false

def element? : DataType → Option DataType
  | array element => some element
  | _ => none

end DataType

end TypedQuery

/-!
## Coercion and common supertypes

`canCoerceTo` says when a value of one type may stand where another is declared,
`commonSupertype` infers the type of an expression over operands of two types, and
`isComparableWith` admits a comparison: a common supertype, or a temporal operand beside a
string that denotes one.
-/

namespace TypedQuery.DataType

def canCoerceTo : DataType → DataType → Bool
  | null, _ => true
  | int32, int64 | int32, float64 | int64, float64 => true
  | date, timestamp _ => true
  | array a, array b => a.canCoerceTo b
  | a, b => a == b

/-- Of two timestamp units the finer one is kept, so that neither operand loses precision. -/
def commonSupertype : DataType → DataType → Option DataType
  | null, t => some t
  | t, null => some t
  | int32, int64 | int64, int32 => some int64
  | int32, float64 | int64, float64 | float64, int32 | float64, int64 => some float64
  | date, timestamp u | timestamp u, date => some (timestamp u)
  | timestamp u, timestamp v => some (timestamp (u.finer v))
  | array a, array b => (a.commonSupertype b).map array
  | a, b => if a = b then some a else none

def isComparableWith (a b : DataType) : Bool :=
  (a.commonSupertype b).isSome || (a.isTemporal && b.isString)
    || (a.isString && b.isTemporal)

/-- The common supertype of a list, starting from `null`. -/
def highestPrecedence (types : List DataType) : Option DataType :=
  types.foldlM commonSupertype null

theorem canCoerceTo_refl (t : DataType) : t.canCoerceTo t = true := by
  induction t with
  | array a ih => simpa [canCoerceTo] using ih
  | _ => simp [canCoerceTo]

theorem commonSupertype_self (t : DataType) : t.commonSupertype t = some t := by
  induction t with
  | array a ih => simp [commonSupertype, ih]
  | timestamp u => simp [commonSupertype, TimeUnit.finer]
  | _ => simp [commonSupertype]

end TypedQuery.DataType
