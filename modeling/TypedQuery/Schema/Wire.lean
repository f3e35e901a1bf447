import TypedQuery.Json.Decode
import TypedQuery.Schema.Basic

/-!
# Types and schemas in JSON

A type is written as a variant: the bare name for a type without parameter, and an object
for timestamps, intervals and arrays. Columns and schemas are objects.
-/

namespace TypedQuery.DataType

def toJson : DataType → Json
  | null => .string "Null"
  | boolean => .string "Bool"
  | int32 => .string "Int32"
  | int64 => .string "Int64"
  | float64 => .string "Float64"
  | string => .string "String"
  | binary => .string "Binary"
  | date => .string "Date"
  | timestamp unit => .object [("Timestamp", .string unit.name)]
  | interval unit => .object [("Interval", .string unit.name)]
  | array element => .object [("Array", element.toJson)]

def simple : List (String × DataType) :=
  [("Null", null), ("Bool", boolean), ("Int32", int32), ("Int64", int64),
    ("Float64", float64), ("String", string), ("Binary", binary), ("Date", date)]

def ofJson? : Json → Option DataType
  | .string name => (simple.find? (·.1 == name)).map (·.2)
  | .object [("Timestamp", unit)] => (unit.unitVariant?.bind TimeUnit.ofName?).map timestamp
  | .object [("Interval", unit)] =>
    (unit.unitVariant?.bind IntervalUnit.ofName?).map interval
  | .object [("Array", element)] => (ofJson? element).map array
  | .object [(name, .null)] => (simple.find? (·.1 == name)).map (·.2)
  | _ => none

theorem ofJson?_toJson (t : DataType) : ofJson? t.toJson = some t := by
  induction t with
  | timestamp u => cases u <;> rfl
  | interval u => cases u <;> rfl
  | array a ih => simp [toJson, ofJson?, ih]
  | _ => rfl

end TypedQuery.DataType

namespace TypedQuery

def ColumnInfo.toJson (c : ColumnInfo) : Json :=
  .object [("name", .string c.name), ("data_type", c.dataType.toJson),
    ("nullable", .bool c.nullable)]

def ColumnInfo.ofJson? (j : Json) : Option ColumnInfo :=
  match j.record? ["name", "data_type", "nullable"] with
  | some [some name, some dataType, some nullable] => do
    some ⟨← name.string?, ← DataType.ofJson? dataType, ← nullable.bool?⟩
  | _ => none

namespace Schema

def toJson (s : Schema) : Json := .object [("columns", .array (s.columns.map (·.toJson)))]

def ofJson? (j : Json) : Option Schema :=
  match j.record? ["columns"] with
  | some [some columns] => do some ⟨← (← columns.array?).mapM ColumnInfo.ofJson?⟩
  | _ => none

end Schema

end TypedQuery
