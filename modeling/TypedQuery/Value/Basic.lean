import TypedQuery.Binary64.Double
import TypedQuery.DataType.Basic
import TypedQuery.Decimal.Shortest
import TypedQuery.Text.Quoted

/-!
# Literal values

The values that literals carry and that in-memory tables hold. Equality is structural, with
doubles by all their bits, so that values can key tables: two doubles that are no numbers
are the same value only if they have the same sign and payload. `dataType` is the type a
value has by itself; the elements of an array share their common supertype, and an array
without one is an array of nulls.
-/

namespace TypedQuery

inductive Value where
  | null
  | bool (b : Bool)
  | int64 (n : Int64)
  | float64 (x : Double)
  | string (s : String)
  | binary (bytes : List UInt8)
  /-- Days since 1970-01-01. -/
  | date (days : Int32)
  /-- Ticks since 1970-01-01T00:00:00. -/
  | timestamp (ticks : Int64) (unit : TimeUnit)
  | interval (steps : Int64) (unit : IntervalUnit)
  | array (items : List Value)

namespace Value

/-! ## Equality -/

mutual

def beq : Value → Value → Bool
  | null, null => true
  | bool a, bool b => a == b
  | int64 a, int64 b => a == b
  | float64 a, float64 b => decide (a = b)
  | string a, string b => a == b
  | binary a, binary b => a == b
  | date a, date b => a == b
  | timestamp a u, timestamp b v => a == b && decide (u = v)
  | interval a u, interval b v => a == b && decide (u = v)
  | array a, array b => beqList a b
  | _, _ => false

def beqList : List Value → List Value → Bool
  | [], [] => true
  | a :: as, b :: bs => beq a b && beqList as bs
  | _, _ => false

end

mutual

theorem eq_of_beq : ∀ {a b : Value}, beq a b = true → a = b
  | null, b, h | bool _, b, h | int64 _, b, h | float64 _, b, h | string _, b, h
  | binary _, b, h | date _, b, h | timestamp _ _, b, h | interval _ _, b, h => by
    cases b <;> simp_all [beq]
  | array as, b, h => by
    cases b <;> simp only [beq, Bool.false_eq_true] at h
    rw [eq_of_beqList h]

theorem eq_of_beqList : ∀ {as bs : List Value}, beqList as bs = true → as = bs
  | [], [], _ => rfl
  | [], _ :: _, h => by simp [beqList] at h
  | _ :: _, [], h => by simp [beqList] at h
  | a :: as, b :: bs, h => by
    simp only [beqList, Bool.and_eq_true] at h
    rw [eq_of_beq h.1, eq_of_beqList h.2]

end

mutual

theorem beq_self : ∀ a : Value, beq a a = true
  | null | bool _ | int64 _ | float64 _ | string _ | binary _ | date _ | timestamp _ _
  | interval _ _ => by
    simp [beq]
  | array as => by simpa only [beq] using beqList_self as

theorem beqList_self : ∀ as : List Value, beqList as as = true
  | [] => rfl
  | a :: as => by simp only [beqList, beq_self a, beqList_self as, Bool.and_self]

end

theorem beq_iff {a b : Value} : beq a b = true ↔ a = b :=
  ⟨eq_of_beq, fun h => h ▸ beq_self a⟩

instance : DecidableEq Value := fun _ _ => decidable_of_iff _ beq_iff

/-! ## Views -/

def isNull : Value → Bool
  | null => true
  | _ => false

def bool? : Value → Option Bool
  | bool b => some b
  | _ => none

def int? : Value → Option Int64
  | int64 n => some n
  | _ => none

/-- The number a value denotes as a double; integers widen. -/
def float? : Value → Option Double
  | float64 x => some x
  | int64 n => some (.ofFloat n.toFloat)
  | _ => none

def string? : Value → Option String
  | string s => some s
  | _ => none

/-- The name of the kind of value, for messages. -/
def kindName : Value → String
  | null => "Null"
  | bool _ => "Bool"
  | int64 _ => "Int64"
  | float64 _ => "Float64"
  | string _ => "String"
  | binary _ => "Binary"
  | date _ => "Date"
  | timestamp _ _ => "Timestamp"
  | interval _ _ => "Interval"
  | array _ => "Array"

mutual

def dataType : Value → DataType
  | null => .null
  | bool _ => .boolean
  | int64 _ => .int64
  | float64 _ => .float64
  | string _ => .string
  | binary _ => .binary
  | date _ => .date
  | timestamp _ unit => .timestamp unit
  | interval _ unit => .interval unit
  | array items => .array ((DataType.highestPrecedence (dataTypes items)).getD .null)

def dataTypes : List Value → List DataType
  | [] => []
  | v :: rest => v.dataType :: dataTypes rest

end

/-! ## Written form -/

mutual

/-- The form used in messages and outlines. -/
def render : Value → String
  | null => "NULL"
  | bool b => if b then "true" else "false"
  | int64 n => toString n.toInt
  | float64 x => Decimal.Style.plain.render x.toFloat
  | string s => Text.quote s
  | binary bytes => "<" ++ toString bytes.length ++ " bytes>"
  | date days => "date(" ++ toString days.toInt ++ ")"
  | timestamp ticks unit => "timestamp(" ++ toString ticks.toInt ++ unit.code ++ ")"
  | interval steps unit => "interval(" ++ toString steps.toInt ++ unit.code ++ ")"
  | array items => "[" ++ renderList items ++ "]"

def renderList : List Value → String
  | [] => ""
  | [v] => v.render
  | v :: rest => v.render ++ ", " ++ renderList rest

end

end Value

end TypedQuery
